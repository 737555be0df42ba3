import Quarry.Text.CaseTable

/-!
# Upper and lower case

Casing of whole texts. A character goes to its counterpart, which may be several characters. The
one rule that looks at more than one character is the Greek sigma: in lower case it has a form of
its own at the end of a word (`sigmaEndsWord`).
-/

set_option autoImplicit false

namespace Quarry.Text

/-- Look a code point up in a table of runs and expansions; a character in neither is its own
counterpart. -/
def caseMap (runs : List CaseRun) (expansions : List (Nat × List Nat)) (c : Char) : List Char :=
  match runs.findSome? fun r => r.find? c.toNat with
  | some n => [Char.ofNat n]
  | none =>
    match expansions.find? fun e => e.1 == c.toNat with
    | some e => e.2.map Char.ofNat
    | none => [c]

/-- The lower-case form of a character that stands alone. -/
def lowerChar (c : Char) : List Char :=
  if 'A' <= c && c <= 'Z' then [Char.ofNat (c.toNat + 32)]
  else if c.toNat < 0x80 then [c]
  else caseMap lowerRuns lowerExpansions c

/-- The upper-case form of a character. -/
def upperChar (c : Char) : List Char :=
  if 'a' <= c && c <= 'z' then [Char.ofNat (c.toNat - 32)]
  else if c.toNat < 0x80 then [c]
  else caseMap upperRuns upperExpansions c

/-- Whether the character is looked through when deciding where a word ends. -/
def isCaseIgnorable (c : Char) : Bool :=
  caseIgnorableRanges.any fun r => r.1 <= c.toNat && c.toNat <= r.2

/-- Whether the character counts as a letter with case when deciding where a word ends. -/
def isCased (c : Char) : Bool :=
  casedRanges.any fun r => r.1 <= c.toNat && c.toNat <= r.2

/-- Whether the first character that is not looked through is a letter with case. -/
def startsCased (cs : List Char) : Bool :=
  match cs.dropWhile isCaseIgnorable with
  | [] => false
  | c :: _ => isCased c

/-- A sigma ends its word when a letter comes before it and none after it. The characters before
it are given nearest first. -/
def sigmaEndsWord (before after : List Char) : Bool := startsCased before && !startsCased after

/-- Lower-case the text that follows `before` (nearest character first). -/
def lowerFrom (before : List Char) : List Char → List Char
  | [] => []
  | c :: rest =>
    let here :=
      if c = 'Σ' then if sigmaEndsWord before rest then ['ς'] else ['σ'] else lowerChar c
    here ++ lowerFrom (c :: before) rest

/-- The text in lower case. -/
def lower (cs : List Char) : List Char := lowerFrom [] cs

/-- The text in upper case. -/
def upper (cs : List Char) : List Char := cs.flatMap upperChar

end Quarry.Text
