import Quarry.Json.Reader

/-!
# The grammar of JSON text

What JSON text is and what it denotes, one rule for each way to write something. The names of the
special floating-point values belong to the grammar, and integers have a limit on their digits. Half
of a pair of code units may stand alone, be it as it is or by its number.

Rules for values know how many containers may stand inside of each other. So does the rule for what
begins like JSON text, however it goes on, and has containers that stand deeper (`DeepText`): up to
the first of these all must be in order.
-/

set_option autoImplicit false

namespace Quarry.Json

open Number (Binary64)

/-- Whether glyphs are space, as it may stand between the parts of JSON text. -/
def IsSpacing (gs : List Glyph) : Prop := ∀ g ∈ gs, g.any isSpace = true

/-! ## Texts -/

/-- How a part of a text in quotes is written. -/
inductive PartText : List Glyph → TextPart → Prop
  | glyph {g : Glyph} (hplain : ∀ c, g = .char c → 0x20 ≤ c.toNat ∧ c ≠ '"' ∧ c ≠ '\\') :
    PartText [g] (.glyph g)
  | escape {c e : Char} (h : unescape? c = some e) : PartText [.char '\\', .char c] (.glyph (.char e))
  | unit {a b c d : Glyph} {n : Nat} (h : hexUnit? a b c d = some n) :
    PartText [.char '\\', .char 'u', a, b, c, d] (.unit n)

/-- How parts of a text in quotes are written. -/
inductive PartsText : List Glyph → List TextPart → Prop
  | nil : PartsText [] []
  | cons {front later : List Glyph} {p : TextPart} {ps : List TextPart} (hpart : PartText front p)
    (hlater : PartsText later ps) : PartsText (front ++ later) (p :: ps)

/-- How a text is written in quotes. -/
inductive QuotedText : List Glyph → List Glyph → Prop
  | quotes {body : List Glyph} {ps : List TextPart} (h : PartsText body ps) :
    QuotedText (.char '"' :: (body ++ [.char '"'])) (joinUnits ps)

/-! ## Numbers and words -/

/-- Whether digits are those of a whole number: there is no zero in front of others. -/
structure IsWhole (ds : List Char) : Prop where
  digits : ∀ c ∈ ds, Text.isAsciiDigit c = true
  leading : ds = ['0'] ∨ ds ≠ [] ∧ ds.head? ≠ some '0'

/-- How the digits behind the point of a number are written; with none there is no point. -/
inductive FractionText : List Glyph → List Char → Prop
  | none : FractionText [] []
  | digits {ds : List Char} (hne : ds ≠ []) (hdigits : ∀ c ∈ ds, Text.isAsciiDigit c = true) :
    FractionText (.char '.' :: glyphs ds) ds

/-- How the sign of an exponent is written, with whether it is a minus. -/
inductive SignText : List Glyph → Bool → Prop
  | none : SignText [] false
  | plus : SignText [.char '+'] false
  | minus : SignText [.char '-'] true

/-- How the exponent of a number is written, if it has one. -/
inductive ExponentText : List Glyph → Option Int → Prop
  | none : ExponentText [] none
  | digits {mark : Char} {sign : List Glyph} {negative : Bool} {ds : List Char}
    (hmark : mark = 'e' ∨ mark = 'E') (hsign : SignText sign negative) (hne : ds ≠ [])
    (hdigits : ∀ c ∈ ds, Text.isAsciiDigit c = true) :
    ExponentText (.char mark :: (sign ++ glyphs ds))
      (some (Number.Exact.signedNum negative (Text.asciiNat ds)))

/-- How a number is written behind its sign. -/
inductive NumberText (negative : Bool) : List Glyph → Tree → Prop
  | int {ds : List Char} (hwhole : IsWhole ds) (hshort : ds.length ≤ Number.maxDigits) :
    NumberText negative (glyphs ds) (.int (Number.Exact.signedNum negative (Text.asciiNat ds)))
  | real {whole fraction : List Char} {exponent : Option Int} {behind power : List Glyph}
    (hwhole : IsWhole whole) (hfraction : FractionText behind fraction)
    (hexponent : ExponentText power exponent) (hreal : fraction ≠ [] ∨ exponent ≠ none) :
    NumberText negative (glyphs whole ++ (behind ++ power))
      (.real (Binary64.ofScientific negative (Text.asciiNat (whole ++ fraction))
        (exponent.getD 0 - fraction.length)))

/-- The values with names. -/
def named : List (String × Tree) :=
  [("null", .null), ("true", .bool true), ("false", .bool false), ("NaN", .real (.nan true)),
    ("Infinity", .real (.infinite false)), ("-Infinity", .real (.infinite true))]

/-- How a value is written that is neither text nor container. -/
inductive ScalarText : List Glyph → Tree → Prop
  | name {word : String} {j : Tree} (h : (word, j) ∈ named) : ScalarText (glyphs word.toList) j
  | positive {gs : List Glyph} {j : Tree} (h : NumberText false gs j) : ScalarText gs j
  | negative {gs : List Glyph} {j : Tree} (h : NumberText true gs j) : ScalarText (.char '-' :: gs) j

/-! ## Containers -/

/-- The glyph that opens an array or, with `object`, an object. -/
def opening (object : Bool) : Glyph := .char (if object then '\x7b' else '[')

/-- The glyph that closes an array or, with `object`, an object. -/
def closing (object : Bool) : Glyph := .char (if object then '\x7d' else ']')

/-- The array or, with `object`, the object of members. -/
def container (object : Bool) (members : List (List Glyph × Tree)) : Tree :=
  if object then .object (keepLast members) else .array (members.map (·.2))

/-- What stands in front of the value of a member: space in an array, and in an object its name,
too. -/
inductive LeadText : Bool → List Glyph → List Glyph → Prop
  | item {space : List Glyph} (h : IsSpacing space) : LeadText false space []
  | field {space quoted before after t : List Glyph} (hspace : IsSpacing space)
    (hquoted : QuotedText quoted t) (hbefore : IsSpacing before) (hafter : IsSpacing after) :
    LeadText true (space ++ (quoted ++ (before ++ .char ':' :: after))) t

mutual

/-- How a value is written, with room for a number of containers inside of each other. -/
inductive ValueText : Nat → List Glyph → Tree → Prop
  | text {room : Nat} {gs t : List Glyph} (h : QuotedText gs t) : ValueText room gs (.text t)
  | scalar {room : Nat} {gs : List Glyph} {j : Tree} (h : ScalarText gs j) : ValueText room gs j
  | empty {room : Nat} {space : List Glyph} (object : Bool) (h : IsSpacing space) :
    ValueText (room + 1) (opening object :: (space ++ [closing object])) (container object [])
  | container {room : Nat} {object : Bool} {gs : List Glyph}
    {members : List (List Glyph × Tree)} (h : MembersText object room gs members) :
    ValueText (room + 1) (opening object :: (gs ++ [closing object])) (container object members)

/-- How the members of an array or, with `object`, of an object are written. -/
inductive MembersText : Bool → Nat → List Glyph → List (List Glyph × Tree) → Prop
  | last {object : Bool} {room : Nat} {lead text after : List Glyph} {name : List Glyph}
    {v : Tree} (hlead : LeadText object lead name) (hvalue : ValueText room text v)
    (hafter : IsSpacing after) : MembersText object room (lead ++ (text ++ after)) [(name, v)]
  | more {object : Bool} {room : Nat} {lead text after later : List Glyph} {name : List Glyph}
    {v : Tree} {members : List (List Glyph × Tree)} (hlead : LeadText object lead name)
    (hvalue : ValueText room text v) (hafter : IsSpacing after)
    (hlater : MembersText object room later members) :
    MembersText object room (lead ++ (text ++ (after ++ .char ',' :: later))) ((name, v) :: members)

end

/-- How a value is written with space around it. -/
def DocumentText (room : Nat) (gs : List Glyph) (v : Tree) : Prop :=
  ∃ front text back, gs = front ++ (text ++ back) ∧ IsSpacing front ∧ ValueText room text v ∧ IsSpacing back

/-- How a text is written in quotes with space around it. -/
def QuotedDocument (gs t : List Glyph) : Prop :=
  ∃ front text back, gs = front ++ (text ++ back) ∧ IsSpacing front ∧ QuotedText text t ∧ IsSpacing back

/-! ## Depth -/

mutual

/-- What begins like a value and has containers that stand deeper inside of each other than there is
room. -/
inductive DeepText : Nat → List Glyph → Prop
  | here {gs : List Glyph} (object : Bool) : DeepText 0 (opening object :: gs)
  | inside {room : Nat} {object : Bool} {gs : List Glyph} (h : DeepMembers object room gs) :
    DeepText (room + 1) (opening object :: gs)

/-- What begins like members and goes on with one whose containers stand too deep. -/
inductive DeepMembers : Bool → Nat → List Glyph → Prop
  | first {object : Bool} {room : Nat} {lead gs : List Glyph} {name : List Glyph}
    (hlead : LeadText object lead name) (h : DeepText room gs) : DeepMembers object room (lead ++ gs)
  | further {object : Bool} {room : Nat} {lead text after gs : List Glyph} {name : List Glyph}
    {v : Tree} (hlead : LeadText object lead name) (hvalue : ValueText room text v)
    (hafter : IsSpacing after) (h : DeepMembers object room gs) :
    DeepMembers object room (lead ++ (text ++ (after ++ .char ',' :: gs)))

end

/-- What begins, with space in front, like a value in which containers stand too deep to be read. -/
def DeepDocument [Limits] (gs : List Glyph) : Prop :=
  ∃ front text, gs = front ++ text ∧ IsSpacing front ∧ DeepText Limits.depth text

mutual

/-- What is JSON text for some depth is JSON text for another one as well or stands too deep for
it. -/
theorem ValueText.fits_or_deep {room : Nat} {gs : List Glyph} {v : Tree} :
    ValueText room gs v → ∀ (room' : Nat) (rest : List Glyph),
      ValueText room' gs v ∨ DeepText room' (gs ++ rest)
  | .text h, _, _ => .inl (.text h)
  | .scalar h, _, _ => .inl (.scalar h)
  | .empty _ _, 0, _ => .inr (.here _)
  | .empty _ h, _ + 1, _ => .inl (.empty _ h)
  | .container _, 0, _ => .inr (.here _)
  | .container h, room' + 1, rest => by
    obtain hfits | hdeep := h.fits_or_deep room' (closing _ :: rest)
    · exact .inl (.container hfits)
    · have hopen := DeepText.inside hdeep
      exact .inr (by simpa using hopen)

/-- Members either fit into another room or are too deep for it. -/
theorem MembersText.fits_or_deep {object : Bool} {room : Nat} {gs : List Glyph}
    {members : List (List Glyph × Tree)} :
    MembersText object room gs members → ∀ (room' : Nat) (rest : List Glyph),
      MembersText object room' gs members ∨ DeepMembers object room' (gs ++ rest)
  | @MembersText.last _ _ _ _ after _ _ hlead hvalue hafter, room', rest => by
    obtain hfits | hdeep := hvalue.fits_or_deep room' (after ++ rest)
    · exact .inl (.last hlead hfits hafter)
    · rw [List.append_assoc, List.append_assoc]
      exact .inr (.first hlead hdeep)
  | @MembersText.more _ _ _ _ after later _ _ _ hlead hvalue hafter hlater, room', rest => by
    have hfirst := hvalue.fits_or_deep room' (after ++ .char ',' :: (later ++ rest))
    rw [List.append_assoc, List.append_assoc, List.append_assoc, List.cons_append]
    obtain hfits | hdeep := hfirst
    · obtain hfits' | hdeep' := hlater.fits_or_deep room' rest
      · exact .inl (.more hlead hfits hafter hfits')
      · exact .inr (.further hlead hfits hafter hdeep')
    · exact .inr (.first hlead hdeep)

end

end Quarry.Json
