import Quarry.Sql.Fragment

/-!
# Tokens of statements

The text of a statement is read back in the way a database reads it. The first step cuts it into
tokens, one character after the other: names in the dialect's quotes, in which a doubled quote
stands for one, words and numbers, comparison signs, single marks, and placeholders. What a name
contains is never looked at as anything else, which is what keeps hostile names harmless.

A token ends where the next one begins, so the lexer is always behind by the token it is in. A text
that has been read to its end leaves the lexer in a `Mode`, and `Reads` and `Closes` say what has
been read when that token is counted in or when there is none; both kinds of texts can be put
together.
-/

set_option autoImplicit false

namespace Quarry.Sql.Grammar

/-- A token. -/
inductive Token where
  /-- A quoted name, without its quotes. -/
  | name (identifier : String)
  /-- A word or a number. -/
  | word (text : String)
  /-- A comparison sign. -/
  | sign (text : String)
  /-- A character that stands for itself. -/
  | mark (c : Char)
  /-- A placeholder. -/
  | slot
  deriving DecidableEq

/-- Where the lexer is: between tokens, or in one of which some characters have been read. -/
inductive Mode where
  | between
  | word (soFar : List Char)
  | sign (soFar : List Char)
  /-- Inside of quotes. -/
  | name (soFar : List Char)
  /-- Behind a quote that ends the name unless another one follows. -/
  | closing (soFar : List Char)
  /-- Behind the first character of a placeholder of two. -/
  | percent
  /-- Behind a character that begins no token. -/
  | stuck

/-- The characters of words and numbers. -/
def isWordChar (c : Char) : Bool := c.isAlphanum || c == '_'

/-- The characters of comparison signs. -/
def isSignChar (c : Char) : Bool := c == '=' || c == '<' || c == '>' || c == '!'

/-- The characters that stand for themselves. -/
def isMark (c : Char) : Bool := c == '(' || c == ')' || c == ',' || c == '.' || c == '*'

/-- The first character of a token or a blank. -/
def start (d : Dialect) (c : Char) : List Token × Mode :=
  if c = ' ' then ([], .between)
  else if c = d.quote then ([], .name [])
  else if isWordChar c then ([], .word [c])
  else if isSignChar c then ([], .sign [c])
  else if isMark c then ([.mark c], .between)
  else
    match d with
    | .mysql => if c = '%' then ([], .percent) else ([], .stuck)
    | .sqlite => if c = '?' then ([.slot], .between) else ([], .stuck)

/-- A token that ends where another one starts. -/
def startAfter (d : Dialect) (t : Token) (c : Char) : List Token × Mode :=
  (t :: (start d c).1, (start d c).2)

/-- One more character: the tokens that end with it or in front of it, and where the lexer is
then. -/
def step (d : Dialect) : Mode → Char → List Token × Mode
  | .between, c => start d c
  | .word w, c =>
    if isWordChar c then ([], .word (w ++ [c])) else startAfter d (.word (String.ofList w)) c
  | .sign s, c =>
    if isSignChar c then ([], .sign (s ++ [c])) else startAfter d (.sign (String.ofList s)) c
  | .name n, c => if c = d.quote then ([], .closing n) else ([], .name (n ++ [c]))
  | .closing n, c =>
    if c = d.quote then ([], .name (n ++ [c])) else startAfter d (.name (String.ofList n)) c
  | .percent, c => if c = 's' then ([.slot], .between) else ([], .stuck)
  | .stuck, _ => ([], .stuck)

/-- The tokens that end inside of a text, and where the lexer is behind it. -/
def scan (d : Dialect) : Mode → List Char → List Token × Mode
  | m, [] => ([], m)
  | m, c :: cs =>
    let now := step d m c
    let later := scan d now.2 cs
    (now.1 ++ later.1, later.2)

/-- The token that the end of the text ends, if it may end there. -/
def Mode.last? : Mode → Option (List Token)
  | .between => some []
  | .word w => some [.word (String.ofList w)]
  | .sign s => some [.sign (String.ofList s)]
  | .closing n => some [.name (String.ofList n)]
  | .name _ => none
  | .percent => none
  | .stuck => none

/-- The tokens of a text. -/
def tokens? (d : Dialect) (text : List Char) : Option (List Token) :=
  let read := scan d .between text
  read.2.last?.map (read.1 ++ ·)

variable {d : Dialect}

/-- Tokens are read from two parts one after the other. -/
theorem scan_append (m : Mode) (cs ds : List Char) :
    scan d m (cs ++ ds) =
      ((scan d m cs).1 ++ (scan d (scan d m cs).2 ds).1, (scan d (scan d m cs).2 ds).2) := by
  induction cs generalizing m with
  | nil => simp [scan]
  | cons c cs ih => simp [scan, ih]

/-- Behind the text the lexer is between tokens, and it has read these. -/
def Closes (d : Dialect) (cs : List Char) (ts : List Token) : Prop :=
  scan d .between cs = (ts, .between)

/-- Behind the text the lexer has read these tokens, the one it is in counted in. -/
def Reads (d : Dialect) (cs : List Char) (ts : List Token) : Prop :=
  ∃ us m vs, scan d .between cs = (us, m) ∧ m.last? = some vs ∧ us ++ vs = ts

/-- What closes its tokens is read as them. -/
theorem Closes.reads {cs : List Char} {ts : List Token} (h : Closes d cs ts) : Reads d cs ts :=
  ⟨ts, .between, [], h, rfl, List.append_nil ts⟩

/-- What is read as tokens has them. -/
theorem Reads.tokens? {cs : List Char} {ts : List Token} (h : Reads d cs ts) :
    tokens? d cs = some ts := by
  obtain ⟨us, m, vs, hscan, hlast, rfl⟩ := h
  simp [Grammar.tokens?, hscan, hlast]

/-- Parts that close their tokens, one after the other. -/
theorem Closes.append {cs ds : List Char} {ts us : List Token} (h : Closes d cs ts)
    (h' : Closes d ds us) : Closes d (cs ++ ds) (ts ++ us) := by
  unfold Closes at h h' ⊢
  rw [scan_append, h, h']

/-- A part may be read behind another one that closes its tokens. -/
theorem Closes.append_reads {cs ds : List Char} {ts us : List Token} (h : Closes d cs ts)
    (h' : Reads d ds us) : Reads d (cs ++ ds) (ts ++ us) := by
  obtain ⟨vs, m, ws, hscan, hlast, rfl⟩ := h'
  unfold Closes at h
  exact ⟨ts ++ vs, m, ws, by rw [scan_append, h, hscan], hlast, List.append_assoc ts vs ws⟩

/-- The characters that end any token in front of them. -/
def isBreak (c : Char) : Bool := c == ' ' || c == ')' || c == ',' || c == '.'

/-- A token that may end does so in front of a breaking character. -/
theorem step_of_isBreak {m : Mode} {vs : List Token} {c : Char} (hm : m.last? = some vs)
    (hc : isBreak c = true) : step d m c = (vs ++ (start d c).1, (start d c).2) := by
  have hcases : c = ' ' ∨ c = ')' ∨ c = ',' ∨ c = '.' := by
    simpa [isBreak, or_assoc] using hc
  cases m with
  | between =>
    obtain rfl : vs = [] := by simpa [Mode.last?, eq_comm] using hm
    rfl
  | word w =>
    obtain rfl : vs = [.word (String.ofList w)] := by simpa [Mode.last?, eq_comm] using hm
    obtain rfl | rfl | rfl | rfl := hcases <;> cases d <;> rfl
  | sign s =>
    obtain rfl : vs = [.sign (String.ofList s)] := by simpa [Mode.last?, eq_comm] using hm
    obtain rfl | rfl | rfl | rfl := hcases <;> cases d <;> rfl
  | closing n =>
    obtain rfl : vs = [.name (String.ofList n)] := by simpa [Mode.last?, eq_comm] using hm
    obtain rfl | rfl | rfl | rfl := hcases <;> cases d <;> rfl
  | name n => simp [Mode.last?] at hm
  | percent => simp [Mode.last?] at hm
  | stuck => simp [Mode.last?] at hm

/-- Scanning goes on behind a text as if anew when a breaking character follows. -/
theorem scan_append_break {cs ds : List Char} {c : Char} {us vs : List Token} {m : Mode}
    (hscan : scan d .between cs = (us, m)) (hm : m.last? = some vs) (hc : isBreak c = true) :
    scan d .between (cs ++ c :: ds) =
      (us ++ vs ++ (scan d .between (c :: ds)).1, (scan d .between (c :: ds)).2) := by
  have hbetween : step d .between c = start d c := rfl
  rw [scan_append, hscan]
  simp [scan, step_of_isBreak hm hc, hbetween]

/-- A part that begins with a break may be read behind any other. -/
theorem Reads.append {cs ds : List Char} {c : Char} {ts us : List Token}
    (h : Reads d cs ts) (hc : isBreak c = true) (h' : Reads d (c :: ds) us) :
    Reads d (cs ++ c :: ds) (ts ++ us) := by
  obtain ⟨vs, m, ws, hscan, hlast, rfl⟩ := h
  obtain ⟨vs', m', ws', hscan', hlast', rfl⟩ := h'
  refine ⟨vs ++ ws ++ vs', m', ws', ?_, hlast', by simp⟩
  rw [scan_append_break hscan hlast hc, hscan']

/-- Inside of quotes a name is read as it is, whatever it contains. -/
theorem scan_doubleQuotes (soFar n : List Char) :
    scan d (.name soFar) (Dialect.doubleQuotes d.quote n) = ([], .name (soFar ++ n)) := by
  induction n generalizing soFar with
  | nil => simp [Dialect.doubleQuotes, scan]
  | cons c n ih =>
    by_cases hc : c = d.quote
    · simp [Dialect.doubleQuotes, hc, scan, step, ih]
    · simp [Dialect.doubleQuotes, hc, scan, step, ih]

/-- A quoted name is one token, whatever the name contains. -/
theorem reads_quoteChars (n : String) : Reads d (d.quoteChars n.toList) [.name n] := by
  refine ⟨[], .closing n.toList, [.name n], ?_, by simp [Mode.last?], rfl⟩
  have hopen : step d .between d.quote = ([], .name []) := by cases d <;> rfl
  have hclose : step d (.name n.toList) d.quote = ([], .closing n.toList) := by cases d <;> rfl
  simp [Dialect.quoteChars, scan, hopen, scan_append, scan_doubleQuotes, hclose]

end Quarry.Sql.Grammar
