import Quarry.Proofs.Json.Members
import Quarry.Proofs.Json.Tokens

/-!
# JSON text recognized

A text is read as a value exactly if the grammar has it as JSON text of the value with room for all
of its containers (`read_eq_ok_iff`), and reading comes upon a container that stands too deep
exactly if the text begins like JSON text up to such a container (`read_tooDeep_iff`). From the
reader to the grammar the induction is on the fuel, with both outcomes at once; from the grammar to
the reader it is on the rules, with fuel for two steps at each glyph.
-/

set_option autoImplicit false

namespace Quarry.Json

variable {room fuel : Nat} {object : Bool} {gs front rest : List Glyph} {name : List Glyph}
  {v : Tree}

/-! ## The start of a value -/

/-- Whether glyphs start like a value: with a character that is no space and no closing bracket. -/
def Begins (gs : List Glyph) : Prop :=
  ∃ c tail, gs = .char c :: tail ∧ isSpace c = false ∧ c ≠ ']' ∧ c ≠ '\x7d'

/-- There is no space to skip where a value begins. -/
theorem Begins.skipSpace_eq (h : Begins gs) : skipSpace gs = gs := by
  obtain ⟨c, tail, rfl, hspace, -, -⟩ := h
  simp [skipSpace, Glyph.any, hspace]

/-- A digit begins a value. -/
theorem begins_digit {d : Char} (hd : Text.isAsciiDigit d = true) (tail : List Glyph) :
    Begins (.char d :: tail) := by
  refine ⟨d, tail, rfl, ?_, ?_, ?_⟩
  · by_contra hspace
    simp only [isSpace, Bool.not_eq_false, Bool.or_eq_true, beq_iff_eq] at hspace
    obtain ((rfl | rfl) | rfl) | rfl := hspace <;> exact absurd hd (by decide)
  · rintro rfl
    exact absurd hd (by decide)
  · rintro rfl
    exact absurd hd (by decide)

/-- A quoted text opens with a quotation mark. -/
theorem QuotedText.exists_tail {t : List Glyph} (h : QuotedText front t) :
    ∃ tail, front = .char '"' :: tail := by
  cases h
  exact ⟨_, rfl⟩

/-- A quoted text begins a value. -/
theorem QuotedText.begins {t : List Glyph} (h : QuotedText front t) (rest : List Glyph) :
    Begins (front ++ rest) := by
  obtain ⟨tail, rfl⟩ := h.exists_tail
  exact ⟨'"', _, rfl, rfl, by decide, by decide⟩

/-- A number begins a value. -/
theorem NumberText.begins {negative : Bool} {j : Tree} (h : NumberText negative front j) (rest : List Glyph) :
    Begins (front ++ rest) := by
  obtain ⟨d, tail, hd, rfl⟩ := h.exists_digit
  exact begins_digit hd _

/-- A scalar begins a value. -/
theorem ScalarText.begins {j : Tree} (h : ScalarText front j) (rest : List Glyph) :
    Begins (front ++ rest) := by
  cases h with
  | name h =>
    simp only [named, List.mem_cons, Prod.mk.injEq, List.not_mem_nil, or_false] at h
    obtain ⟨rfl, rfl⟩ | ⟨rfl, rfl⟩ | ⟨rfl, rfl⟩ | ⟨rfl, rfl⟩ | ⟨rfl, rfl⟩ | ⟨rfl, rfl⟩ := h <;>
      exact ⟨_, _, rfl, rfl, by decide, by decide⟩
  | positive h => exact h.begins rest
  | negative h => exact ⟨'-', _, rfl, rfl, by decide, by decide⟩

/-- An opening bracket begins a value. -/
theorem begins_opening (object : Bool) (rest : List Glyph) : Begins (opening object :: rest) := by
  cases object <;> exact ⟨_, _, rfl, rfl, by decide, by decide⟩

/-- What is the text of a value begins one. -/
theorem ValueText.begins (h : ValueText room front v) (rest : List Glyph) : Begins (front ++ rest) := by
  cases h with
  | text h => exact h.begins rest
  | scalar h => exact h.begins rest
  | empty object => exact begins_opening object _
  | container => exact begins_opening _ _

/-- What is too deep begins a value. -/
theorem DeepText.begins (h : DeepText room gs) : Begins gs := by
  cases h with
  | here object => exact begins_opening object _
  | inside => exact begins_opening _ _

/-- No value begins with a closing bracket. -/
theorem Begins.ne_closing (h : Begins gs) (object : Bool) (rest : List Glyph) :
    gs ≠ closing object :: rest := by
  obtain ⟨c, tail, rfl, -, hbracket, hbrace⟩ := h
  intro heq
  have hc := Glyph.char.inj (List.cons.inj heq).1
  cases object
  · exact hbracket hc
  · exact hbrace hc

/-! ## Leads -/

/-- What leads to a member's value is taken from before it. -/
theorem LeadText.take (h : LeadText object front name) (hrest : Begins rest) :
    takeLead? object (skipSpace (front ++ rest)) = some (name, rest) := by
  cases h with
  | item hspace =>
    rw [hspace.skipSpace_append, hrest.skipSpace_eq]
    rfl
  | @field space quoted before after _ hspace hquoted hbefore hafter =>
    rw [List.append_assoc, hspace.skipSpace_append, List.append_assoc,
      (hquoted.begins _).skipSpace_eq]
    obtain ⟨tail, htail⟩ := hquoted.exists_tail
    refine takeLead?_true.mpr ⟨name, tail ++ (before ++ .char ':' :: after ++ rest),
      before ++ .char ':' :: after ++ rest, after ++ rest, ?_, ?_, ?_, rfl, ?_⟩
    · rw [htail]
      rfl
    · refine readText?_eq_some_iff.mpr ⟨quoted, hquoted, ?_⟩
      rw [htail]
      rfl
    · rw [List.append_assoc, hbefore.skipSpace_append]
      rfl
    · rw [hafter.skipSpace_append, hrest.skipSpace_eq]

/-- What is taken from before a value leads to it. -/
theorem exists_leadText (h : takeLead? object gs = some (name, rest)) :
    ∃ lead, LeadText object lead name ∧ gs = lead ++ rest := by
  cases object with
  | false =>
    obtain ⟨rfl, rfl⟩ := takeLead?_false.mp h
    exact ⟨[], .item nofun, rfl⟩
  | true =>
    obtain ⟨t, behind, back, later, rfl, htext, hcolon, rfl, rfl⟩ := takeLead?_true.mp h
    obtain ⟨quoted, hquoted, heq⟩ := readText?_eq_some_iff.mp htext
    obtain ⟨before, hbefore, hback⟩ := exists_spacing back
    obtain ⟨after, hafter, hlater⟩ := exists_spacing later
    refine ⟨[] ++ (quoted ++ (before ++ .char ':' :: after)), .field nofun hquoted hbefore hafter, ?_⟩
    rw [heq, hback, hcolon]
    simp [← hlater]

/-! ## Space in front of members -/

/-- Space after space is space. -/
theorem IsSpacing.append (h : IsSpacing front) (h' : IsSpacing gs) : IsSpacing (front ++ gs) :=
  List.forall_mem_append.mpr ⟨h, h'⟩

/-- Space may stand before what leads to a value. -/
theorem LeadText.pad (hspace : IsSpacing front) (h : LeadText object gs name) :
    LeadText object (front ++ gs) name := by
  cases h with
  | item h => exact .item (hspace.append h)
  | field h hquoted hbefore hafter =>
    rw [← List.append_assoc]
    exact .field (hspace.append h) hquoted hbefore hafter

/-- Space may stand before the members of a container. -/
theorem MembersText.pad {members : List (List Glyph × Tree)} (hspace : IsSpacing front)
    (h : MembersText object room gs members) : MembersText object room (front ++ gs) members := by
  cases h with
  | last hlead hvalue hafter =>
    rw [← List.append_assoc]
    exact .last (hlead.pad hspace) hvalue hafter
  | more hlead hvalue hafter hlater =>
    rw [← List.append_assoc]
    exact .more (hlead.pad hspace) hvalue hafter hlater

/-- Space may stand before members that are too deep. -/
theorem DeepMembers.pad (hspace : IsSpacing front) (h : DeepMembers object room gs) :
    DeepMembers object room (front ++ gs) := by
  cases h with
  | first hlead h =>
    rw [← List.append_assoc]
    exact .first (hlead.pad hspace) h
  | further hlead hvalue hafter h =>
    rw [← List.append_assoc]
    exact .further (hlead.pad hspace) hvalue hafter h

/-! ## What is read is JSON text -/

/-- Whether the grammar has what came of reading a value. -/
def Explains (room : Nat) (gs : List Glyph) : Except Unread (Tree × List Glyph) → Prop
  | .ok (v, rest) => ∃ front, ValueText room front v ∧ gs = front ++ rest
  | .error (.tooDeep _) => DeepText room gs
  | .error .malformed => True

/-- Whether the grammar has what came of reading members up to the bracket behind them. -/
def ExplainsMembers (object : Bool) (room : Nat) (gs : List Glyph) :
    Except Unread (List (List Glyph × Tree) × List Glyph) → Prop
  | .ok (members, rest) =>
    ∃ front, MembersText object room front members ∧ gs = front ++ closing object :: rest
  | .error (.tooDeep _) => DeepMembers object room gs
  | .error .malformed => True

/-- Space before members does not change what there is to explain. -/
theorem ExplainsMembers.pad {r : Except Unread (List (List Glyph × Tree) × List Glyph)}
    (hspace : IsSpacing front) (h : ExplainsMembers object room gs r) :
    ExplainsMembers object room (front ++ gs) r := by
  match r, h with
  | .ok (members, rest), ⟨later, hlater, heq⟩ =>
    exact ⟨front ++ later, hlater.pad hspace, by rw [heq, List.append_assoc]⟩
  | .error (.tooDeep _), h => exact DeepMembers.pad hspace h
  | .error .malformed, _ => trivial

/-- Members explain the container that they are in. -/
theorem ExplainsMembers.container {r : Except Unread (List (List Glyph × Tree) × List Glyph)}
    (h : ExplainsMembers object room gs r) :
    Explains (room + 1) (opening object :: gs)
      (r.map fun (members, rest) => (container object members, rest)) := by
  match r, h with
  | .ok (members, rest), ⟨front, htext, heq⟩ => exact ⟨_, .container htext, by simp [heq]⟩
  | .error (.tooDeep _), h => exact DeepText.inside h
  | .error .malformed, _ => trivial

/-- Later members explain those with one more in front. -/
theorem ExplainsMembers.more {r : Except Unread (List (List Glyph × Tree) × List Glyph)}
    {lead text after : List Glyph} (hlead : LeadText object lead name) (hvalue : ValueText room text v)
    (hafter : IsSpacing after) (h : ExplainsMembers object room gs r) :
    ExplainsMembers object room (lead ++ (text ++ (after ++ .char ',' :: gs)))
      (r.map fun (members, rest) => ((name, v) :: members, rest)) := by
  match r, h with
  | .ok (members, rest), ⟨later, hlater, heq⟩ =>
    exact ⟨_, .more hlead hvalue hafter hlater, by simp [heq]⟩
  | .error (.tooDeep _), h => exact DeepMembers.further hlead hvalue hafter h
  | .error .malformed, _ => trivial

/-- What is read as members is explained if it is so with less fuel. -/
theorem explains_readMembers_succ (hvalues : ∀ room gs, Explains room gs (readValue fuel room gs))
    (hmembers : ∀ object room gs, ExplainsMembers object room gs (readMembers object fuel room gs))
    (object : Bool) (room : Nat) (gs : List Glyph) :
    ExplainsMembers object room gs (readMembers object (fuel + 1) room gs) := by
  cases htake : takeLead? object gs with
  | none =>
    rw [readMembers_unled htake]
    trivial
  | some p =>
    obtain ⟨name, front⟩ := p
    obtain ⟨lead, hlead, rfl⟩ := exists_leadText htake
    have hexplained := hvalues room front
    cases hvalue : readValue fuel room front with
    | error e =>
      rw [readMembers_error htake hvalue]
      rw [hvalue] at hexplained
      cases e with
      | malformed => trivial
      | tooDeep => exact DeepMembers.first hlead hexplained
    | ok p =>
      obtain ⟨v, tail⟩ := p
      rw [hvalue] at hexplained
      obtain ⟨text, htext, rfl⟩ := hexplained
      obtain ⟨after, hafter, htail⟩ := exists_spacing tail
      by_cases hend : ∃ rest, skipSpace tail = closing object :: rest
      · obtain ⟨rest, hend⟩ := hend
        rw [readMembers_last htake hvalue hend]
        refine ⟨_, .last hlead htext hafter, ?_⟩
        rw [htail, hend]
        simp
      · by_cases hcomma : ∃ later, skipSpace tail = .char ',' :: later
        · obtain ⟨later, hcomma⟩ := hcomma
          obtain ⟨space, hspace, hlater⟩ := exists_spacing later
          have hexplained := (hmembers object room (skipSpace later)).pad hspace
          rw [← hlater] at hexplained
          rw [readMembers_more htake hvalue hcomma, htail, hcomma]
          exact hexplained.more hlead htext hafter
        · rw [readMembers_unclosed htake hvalue (not_exists.mp hcomma) (not_exists.mp hend)]
          trivial

/-- What is read as a value is explained if it is so with less fuel. -/
theorem explains_readValue_succ
    (hmembers : ∀ object room gs, ExplainsMembers object room gs (readMembers object fuel room gs))
    (room : Nat) (gs : List Glyph) : Explains room gs (readValue (fuel + 1) room gs) := by
  by_cases hquote : ∃ tail, gs = .char '"' :: tail
  · obtain ⟨tail, rfl⟩ := hquote
    rw [readValue_quoted]
    cases htext : readText? tail with
    | none => trivial
    | some p =>
      obtain ⟨t, rest⟩ := p
      obtain ⟨front, hquoted, heq⟩ := readText?_eq_some_iff.mp htext
      exact ⟨front, .text hquoted, heq⟩
  · by_cases hopen : ∃ object tail, gs = opening object :: tail
    · obtain ⟨object, tail, rfl⟩ := hopen
      cases room with
      | zero =>
        rw [readValue_zero]
        exact .here object
      | succ room =>
        obtain ⟨space, hspace, htail⟩ := exists_spacing tail
        by_cases hend : ∃ rest, skipSpace tail = closing object :: rest
        · obtain ⟨rest, hend⟩ := hend
          rw [readValue_closed hend]
          exact ⟨_, .empty object hspace, by rw [htail, hend]; simp⟩
        · rw [readValue_members (not_exists.mp hend)]
          have hexplained := (hmembers object room (skipSpace tail)).pad hspace
          rw [← htail] at hexplained
          exact hexplained.container
    · rw [readValue_other (not_exists.mp hquote) (fun object tail heq => hopen ⟨object, tail, heq⟩)]
      cases hscalar : readScalar? gs with
      | none => trivial
      | some p =>
        obtain ⟨j, rest⟩ := p
        obtain ⟨front, hfront, heq⟩ := exists_scalarText hscalar
        exact ⟨front, .scalar hfront, heq⟩

/-- Whatever reading comes to, the grammar has a reason for it, unless the text is malformed. -/
theorem explains_readValue (fuel room : Nat) (gs : List Glyph) :
    Explains room gs (readValue fuel room gs) := by
  have hboth : (∀ room gs, Explains room gs (readValue fuel room gs)) ∧
      ∀ object room gs, ExplainsMembers object room gs (readMembers object fuel room gs) := by
    -- The readers of values and of members call each other, each time with less fuel.
    induction fuel with
    | zero =>
      refine ⟨fun room gs => ?_, fun object room gs => ?_⟩
      · rw [readValue]
        trivial
      · cases object
        · simp [readMembers, readItems, Except.map, ExplainsMembers]
        · simp [readMembers, readFields, ExplainsMembers]
    | succ fuel ih =>
      exact ⟨explains_readValue_succ ih.2, explains_readMembers_succ ih.1 ih.2⟩
  exact hboth.1 room gs

/-! ## JSON text is read -/

/-- With the space before it skipped, what leads to a value begins one. -/
theorem LeadText.begins (h : LeadText object front name) (hrest : Begins rest) :
    Begins (skipSpace (front ++ rest)) := by
  cases h with
  | item hspace =>
    rw [hspace.skipSpace_append, hrest.skipSpace_eq]
    exact hrest
  | field hspace hquoted =>
    rw [List.append_assoc, hspace.skipSpace_append, List.append_assoc,
      (hquoted.begins _).skipSpace_eq]
    exact hquoted.begins _

/-- With the space before them skipped, members that are too deep begin a value. -/
theorem DeepMembers.begins (h : DeepMembers object room gs) : Begins (skipSpace gs) := by
  cases h with
  | first hlead h => exact hlead.begins h.begins
  | further hlead hvalue => exact hlead.begins (hvalue.begins _)

/-- Members do not open with a closing bracket. -/
theorem MembersText.ne_closing {members : List (List Glyph × Tree)}
    (h : MembersText object room front members) (rest tail : List Glyph) :
    skipSpace (front ++ tail) ≠ closing object :: rest := by
  cases h with
  | last hlead hvalue =>
    rw [List.append_assoc, List.append_assoc]
    exact (hlead.begins (hvalue.begins _)).ne_closing object rest
  | more hlead hvalue =>
    rw [List.append_assoc, List.append_assoc]
    exact (hlead.begins (hvalue.begins _)).ne_closing object rest

/-- A closing bracket is one of the marks that end a value. -/
theorem closing_mem_ends (object : Bool) : ∃ mark ∈ ends, closing object = .char mark := by
  cases object
  · exact ⟨']', by decide, rfl⟩
  · exact ⟨'\x7d', by decide, rfl⟩

/-- A value ends where space and a closing bracket follow. -/
theorem ends_closing (hspace : IsSpacing front) (object : Bool) (rest : List Glyph) :
    Ends (front ++ closing object :: rest) := by
  obtain ⟨mark, hmark, hclosing⟩ := closing_mem_ends object
  rw [hclosing]
  exact Ends.append hspace hmark rest

/-- Space before a closing bracket is skipped. -/
theorem IsSpacing.skipSpace_closing (hspace : IsSpacing front) (object : Bool) (rest : List Glyph) :
    skipSpace (front ++ closing object :: rest) = closing object :: rest := by
  rw [hspace.skipSpace_append]
  cases object <;> rfl

/-- Space before a comma is skipped. -/
theorem IsSpacing.skipSpace_comma (hspace : IsSpacing front) (rest : List Glyph) :
    skipSpace (front ++ .char ',' :: rest) = .char ',' :: rest := hspace.skipSpace_append _

mutual

/-- A value is read in front of what can stand behind it. -/
theorem ValueText.read {room : Nat} {gs : List Glyph} {v : Tree} :
    ValueText room gs v → ∀ (fuel : Nat) {rest : List Glyph}, 2 * gs.length ≤ fuel → Ends rest →
      readValue fuel room (gs ++ rest) = .ok (v, rest)
  | .text h, fuel, rest, hfuel, _ => by
    obtain ⟨tail, rfl⟩ := h.exists_tail
    obtain ⟨fuel, rfl⟩ := Nat.exists_eq_add_one.mpr (Nat.lt_of_lt_of_le (by simp) hfuel)
    have htext := readText?_eq_some_iff.mpr ⟨_, h, (rfl : .char '"' :: (tail ++ rest) = _)⟩
    rw [List.cons_append, readValue_quoted, htext]
    rfl
  | .scalar h, fuel, rest, hfuel, hrest => by
    obtain ⟨c, tail, htext, -⟩ := h.begins []
    rw [List.append_nil] at htext
    obtain ⟨fuel, rfl⟩ := Nat.exists_eq_add_one.mpr (Nat.lt_of_lt_of_le (by simp [htext]) hfuel)
    exact readValue_scalar (h.read hrest)
  | .empty _ hspace, fuel, rest, hfuel, _ => by
    obtain ⟨fuel, rfl⟩ := Nat.exists_eq_add_one.mpr (Nat.lt_of_lt_of_le (by simp) hfuel)
    rw [List.cons_append, List.append_assoc]
    exact readValue_closed (hspace.skipSpace_closing _ rest)
  | .container h, fuel, rest, hfuel, _ => by
    obtain ⟨fuel, rfl⟩ := Nat.exists_eq_add_one.mpr (Nat.lt_of_lt_of_le (by simp) hfuel)
    have hread := h.read fuel rest (by simp at hfuel; omega)
    rw [List.cons_append, List.append_assoc, List.singleton_append,
      readValue_members fun tail => h.ne_closing tail _, hread]
    rfl

/-- Members are read in front of the bracket that closes what they are in. -/
theorem MembersText.read {object : Bool} {room : Nat} {gs : List Glyph}
    {members : List (List Glyph × Tree)} :
    MembersText object room gs members → ∀ (fuel : Nat) (rest : List Glyph), 2 * gs.length + 1 ≤ fuel →
      readMembers object fuel room (skipSpace (gs ++ closing object :: rest)) = .ok (members, rest)
  | @MembersText.last _ _ _ _ after _ _ hlead hvalue hafter, fuel, rest, hfuel => by
    obtain ⟨fuel, rfl⟩ := Nat.exists_eq_add_one.mpr (Nat.lt_of_lt_of_le (Nat.succ_pos _) hfuel)
    have htake := hlead.take (hvalue.begins (after ++ closing object :: rest))
    have hread := hvalue.read fuel (by simp at hfuel; omega) (ends_closing hafter object rest)
    rw [List.append_assoc, List.append_assoc]
    exact readMembers_last htake hread (hafter.skipSpace_closing _ rest)
  | @MembersText.more _ _ _ _ after later _ _ _ hlead hvalue hafter hlater, fuel, rest, hfuel => by
    obtain ⟨fuel, rfl⟩ := Nat.exists_eq_add_one.mpr (Nat.lt_of_lt_of_le (Nat.succ_pos _) hfuel)
    have htake := hlead.take (hvalue.begins (after ++ .char ',' :: (later ++ closing object :: rest)))
    have hread := hvalue.read fuel (by simp at hfuel; omega)
      (Ends.append hafter (by decide : ',' ∈ ends) (later ++ closing object :: rest))
    have hlater' := hlater.read fuel rest (by simp at hfuel; omega)
    rw [List.append_assoc, List.append_assoc, List.append_assoc, List.cons_append,
      readMembers_more htake hread (hafter.skipSpace_comma _), hlater']
    rfl

end

mutual

/-- Containers that stand too deep are come upon. -/
theorem DeepText.read {room : Nat} {gs : List Glyph} :
    DeepText room gs → ∀ fuel : Nat, 2 * gs.length ≤ fuel →
      ∃ object, readValue fuel room gs = .error (.tooDeep object)
  | .here _, fuel, hfuel => by
    obtain ⟨fuel, rfl⟩ := Nat.exists_eq_add_one.mpr (Nat.lt_of_lt_of_le (by simp) hfuel)
    exact ⟨_, readValue_zero⟩
  | .inside h, fuel, hfuel => by
    obtain ⟨fuel, rfl⟩ := Nat.exists_eq_add_one.mpr (Nat.lt_of_lt_of_le (by simp) hfuel)
    obtain ⟨deep, hread⟩ := h.read fuel (by simp at hfuel; omega)
    refine ⟨deep, ?_⟩
    rw [readValue_members fun rest => h.begins.ne_closing _ rest, hread]
    rfl

/-- Members that are too deep are read as such. -/
theorem DeepMembers.read {object : Bool} {room : Nat} {gs : List Glyph} :
    DeepMembers object room gs → ∀ fuel : Nat, 2 * gs.length + 1 ≤ fuel →
      ∃ deep, readMembers object fuel room (skipSpace gs) = .error (.tooDeep deep)
  | .first hlead h, fuel, hfuel => by
    obtain ⟨fuel, rfl⟩ := Nat.exists_eq_add_one.mpr (Nat.lt_of_lt_of_le (Nat.succ_pos _) hfuel)
    obtain ⟨deep, hread⟩ := h.read fuel (by simp at hfuel; omega)
    exact ⟨deep, readMembers_error (hlead.take h.begins) hread⟩
  | @DeepMembers.further _ _ _ _ after gs _ _ hlead hvalue hafter h, fuel, hfuel => by
    obtain ⟨fuel, rfl⟩ := Nat.exists_eq_add_one.mpr (Nat.lt_of_lt_of_le (Nat.succ_pos _) hfuel)
    have htake := hlead.take (hvalue.begins (after ++ .char ',' :: gs))
    have hread := hvalue.read fuel (by simp at hfuel; omega)
      (Ends.append hafter (by decide : ',' ∈ ends) gs)
    obtain ⟨deep, hdeep⟩ := h.read fuel (by simp at hfuel; omega)
    refine ⟨deep, ?_⟩
    rw [readMembers_more htake hread (hafter.skipSpace_comma _), hdeep]
    rfl

end

/-! ## Whole texts -/

/-- Skipping leaves nothing of space alone. -/
theorem skipSpace_eq_nil_iff : skipSpace gs = [] ↔ IsSpacing gs := List.dropWhile_eq_nil_iff

/-- A text that does not start with space is that of another text exactly if it is read so. -/
theorem readQuoted?_eq_some_iff {t : List Glyph} (hstart : skipSpace gs = gs) :
    readQuoted? gs = some t ↔ QuotedDocument gs t := by
  constructor
  · intro h
    unfold readQuoted? at h
    split at h
    · obtain ⟨⟨u, rest⟩, htext, hrest⟩ := Option.bind_eq_some_iff.mp h
      dsimp only at hrest
      split_ifs at hrest with hempty
      obtain rfl := Option.some.inj hrest
      obtain ⟨text, hquoted, heq⟩ := readText?_eq_some_iff.mp htext
      exact ⟨[], text, rest, heq, nofun, hquoted, skipSpace_eq_nil_iff.mp (List.isEmpty_iff.mp hempty)⟩
    · exact nomatch h
  · rintro ⟨front, text, back, rfl, hfront, hquoted, hback⟩
    rw [hfront.skipSpace_append, (hquoted.begins back).skipSpace_eq] at hstart
    rw [← hstart]
    obtain ⟨tail, htail⟩ := hquoted.exists_tail
    have htext : readText? (tail ++ back) = some (t, back) :=
      readText?_eq_some_iff.mpr ⟨text, hquoted, by rw [htail]; rfl⟩
    rw [htail, List.cons_append, readQuoted?, htext]
    simp [skipSpace_eq_nil_iff.mpr hback]

variable [Limits]

/-- A text is read as a value exactly if it is JSON text of the value and no container stands too
deep. -/
theorem read_eq_ok_iff {j : Tree} : read gs = .ok j ↔ DocumentText Limits.depth gs j := by
  constructor
  · intro h
    obtain ⟨⟨v, rest⟩, hvalue, hrest⟩ := bind_eq_ok.mp h
    dsimp only at hrest
    split_ifs at hrest with hempty
    obtain rfl := Except.ok.inj hrest
    have hexplained := explains_readValue (2 * gs.length + 1) Limits.depth (skipSpace gs)
    rw [hvalue] at hexplained
    obtain ⟨text, htext, heq⟩ := hexplained
    obtain ⟨front, hfront, hgs⟩ := exists_spacing gs
    rw [heq] at hgs
    exact ⟨front, text, rest, hgs, hfront, htext, skipSpace_eq_nil_iff.mp (List.isEmpty_iff.mp hempty)⟩
  · rintro ⟨front, text, back, rfl, hfront, htext, hback⟩
    have hread := htext.read (2 * (front ++ (text ++ back)).length + 1) (by simp; omega)
      (Ends.of_spacing hback)
    rw [read, hfront.skipSpace_append, (htext.begins back).skipSpace_eq, hread]
    simp [skipSpace_eq_nil_iff.mpr hback]

/-- Reading comes upon containers that stand too deep exactly in texts that begin like JSON text
with such. -/
theorem read_tooDeep_iff :
    (∃ object, read gs = .error (.tooDeep object)) ↔ DeepDocument gs := by
  obtain ⟨front, hfront, hgs⟩ := exists_spacing gs
  constructor
  · rintro ⟨object, h⟩
    have hexplained := explains_readValue (2 * gs.length + 1) Limits.depth (skipSpace gs)
    unfold read at h
    cases hvalue : readValue (2 * gs.length + 1) Limits.depth (skipSpace gs) with
    | error e =>
      rw [hvalue] at h hexplained
      obtain rfl := Except.error.inj h
      exact ⟨front, skipSpace gs, hgs, hfront, hexplained⟩
    | ok p =>
      rw [hvalue] at h
      simp only [bind, Except.bind] at h
      split_ifs at h
      · exact nomatch h
      · simp at h
  · rintro ⟨front, text, rfl, hfront, hdeep⟩
    obtain ⟨object, hread⟩ := hdeep.read (2 * (front ++ text).length + 1) (by simp; omega)
    refine ⟨object, ?_⟩
    rw [read, hfront.skipSpace_append, hdeep.begins.skipSpace_eq, hread]
    rfl

/-- JSON text of any depth is read unless its containers stand too deep. -/
theorem DocumentText.fits_or_deep {j : Tree} (h : DocumentText room gs j) :
    DocumentText Limits.depth gs j ∨ DeepDocument gs := by
  obtain ⟨front, text, back, rfl, hfront, htext, hback⟩ := h
  obtain hfits | hdeep := htext.fits_or_deep Limits.depth back
  · exact .inl ⟨front, text, back, rfl, hfront, hfits, hback⟩
  · exact .inr ⟨front, text ++ back, rfl, hfront, hdeep⟩

end Quarry.Json
