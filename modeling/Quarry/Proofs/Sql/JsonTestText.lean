import Quarry.Proofs.Sql.TermText

/-!
# Predicates on JSON read back

Whether an array contains values or shares one with them, and whether the text at a path matches a
pattern, is said differently in the two dialects, and some of it needs a selection in the middle of
a condition. Each predicate is read back as one condition on its column all the same, in which
nothing but the number of values shows what they are.
-/

set_option autoImplicit false

namespace Quarry.Sql

open Grammar (Token Item Term Condition Reads Closes Brackets Parses Undivided)

variable {d : Dialect}

namespace Grammar

/-- A word, a column, and a fragment that begins with a breaking character. -/
theorem reads_column {pre : String} {ts us : List Token} (hpre : Closes d pre.toList ts)
    (c : ColumnRef) {f : Fragment} {x : Char} {xs : List Char} (hf : Fragment.chars d f = x :: xs)
    (hx : isBreak x = true) (h : Reads d (Fragment.chars d f) us) :
    Reads d (Fragment.chars d (.word pre :: (c.fragment ++ f))) (ts ++ (c.tokens ++ us)) := by
  rw [hf] at h
  have hcolumn := c.reads.append hx h
  simpa [Piece.chars, hf] using hpre.append_reads hcolumn

/-- Nothing is read from an empty text. -/
theorem reads_nil : Reads d (Fragment.chars d []) [] := ⟨[], .between, [], rfl, rfl, rfl⟩

/-- Placeholders between two words, and what follows. -/
theorem reads_slots_then {pre post : String} {ts us ws : List Token} (hpre : Closes d pre.toList ts)
    (hpost : Closes d post.toList us) {vs : List Value} (hne : vs ≠ []) {f : Fragment}
    (hf : Reads d (Fragment.chars d f) ws) :
    Reads d (Fragment.chars d (.word pre :: (Fragment.slots vs ++ .word post :: f)))
      (ts ++ (slotTokens vs.length ++ (us ++ ws))) := by
  have hslots := (reads_slots vs hne).append_reads (hpost.append_reads hf)
  simpa [Piece.chars] using hpre.append_reads hslots

end Grammar

namespace JsonTest

/-- Whether a test has the values it needs. -/
def IsProper : JsonTest → Prop
  | .contains vs => vs ≠ []
  | .overlaps vs => vs ≠ []
  | .pathLike .. => True

/-- The tokens of a call of a function on a column and an array of placeholders. -/
def callTokens (function : String) (c : ColumnRef) (n : Nat) : List Token :=
  [Token.word function, .mark '('] ++ (c.tokens ++ ([Token.mark ',', .word "JSON_ARRAY", .mark '('] ++
    (Grammar.slotTokens n ++ [Token.mark ')', .mark ')'])))

/-- The tokens with which the elements of a column's array are taken that are among placeholders,
the parenthesis in front of them included in `before`. -/
def eachTokens (before : List Token) (c : ColumnRef) (n : Nat) (behind : List Token) : List Token :=
  (before ++ [Token.word "FROM", .word "json_each", .mark '(']) ++ (c.tokens ++ ([Token.mark ')',
    .word "WHERE", .word "json_each", .mark '.', .word "value", .word "IN", .mark '('] ++
    (Grammar.slotTokens n ++ ([Token.mark ')', .mark ')'] ++ behind))))

/-- The tokens of a test. -/
def tokens (d : Dialect) (c : ColumnRef) : JsonTest → List Token
  | .contains vs =>
    match d with
    | .mysql => callTokens "JSON_CONTAINS" c vs.length
    | .sqlite =>
      eachTokens [.mark '(', .word "SELECT", .word "COUNT", .mark '(', .word "DISTINCT",
        .word "json_each", .mark '.', .word "value", .mark ')'] c vs.length
        [.sign "=", .word (toString vs.length)]
  | .overlaps vs =>
    match d with
    | .mysql => callTokens "JSON_OVERLAPS" c vs.length
    | .sqlite =>
      eachTokens [.word "EXISTS", .mark '(', .word "SELECT", .word "1"] c vs.length []
  | .pathLike .. =>
    match d with
    | .mysql =>
      [Token.word "CAST", .mark '(', .word "JSON_UNQUOTE", .mark '(', .word "JSON_EXTRACT", .mark '('] ++
        (c.tokens ++ [Token.mark ',', .slot, .mark ')', .mark ')', .word "AS", .word "CHAR", .mark ')',
          .word "LIKE", .slot])
    | .sqlite =>
      [Token.word "CAST", .mark '(', .word "json_extract", .mark '('] ++
        (c.tokens ++ [Token.mark ',', .slot, .mark ')', .word "AS", .word "TEXT", .mark ')',
          .word "LIKE", .slot])

/-- A call is read as its tokens. -/
theorem reads_call {pre function : String}
    (hpre : Closes .mysql pre.toList [.word function, .mark '(']) (c : ColumnRef) {vs : List Value}
    (hvs : vs ≠ []) :
    Reads .mysql (Fragment.chars .mysql (.word pre :: (c.fragment ++ .word ", JSON_ARRAY(" ::
      (Fragment.slots vs ++ [.word "))"])))) (callTokens function c vs.length) := by
  have hmid : Closes .mysql ", JSON_ARRAY(".toList [.mark ',', .word "JSON_ARRAY", .mark '('] := rfl
  have hpost : Closes .mysql "))".toList [.mark ')', .mark ')'] := rfl
  exact Grammar.reads_column hpre c rfl rfl
    (Grammar.reads_slots_then hmid hpost hvs Grammar.reads_nil)

/-- A walk over an array is read as its tokens. -/
theorem reads_each {pre post : String} {before behind us : List Token}
    (hpre : Closes .sqlite pre.toList (before ++ [Token.word "FROM", .word "json_each", .mark '(']))
    (c : ColumnRef) {vs : List Value} (hvs : vs ≠ [])
    (hpost : Closes .sqlite post.toList ([Token.mark ')', .mark ')'] ++ us)) {f : Fragment}
    (hf : Reads .sqlite (Fragment.chars .sqlite f) behind) :
    Reads .sqlite (Fragment.chars .sqlite (.word pre :: (c.fragment ++
      .word ") WHERE json_each.value IN (" :: (Fragment.slots vs ++ .word post :: f))))
      (eachTokens before c vs.length (us ++ behind)) := by
  have hmid : Closes .sqlite ") WHERE json_each.value IN (".toList
      [.mark ')', .word "WHERE", .word "json_each", .mark '.', .word "value", .word "IN",
        .mark '('] := rfl
  have hall := Grammar.reads_column hpre c rfl rfl (Grammar.reads_slots_then hmid hpost hvs hf)
  simpa [eachTokens] using hall

/-- A JSON test is read as its tokens. -/
theorem reads (c : ColumnRef) (t : JsonTest) (ht : t.IsProper) :
    Reads d (Fragment.chars d (t.fragment d c.fragment)) (t.tokens d c) := by
  cases t with
  | contains vs =>
    cases d with
    | mysql =>
      have hpre : Closes .mysql "JSON_CONTAINS(".toList [.word "JSON_CONTAINS", .mark '('] := rfl
      exact reads_call hpre c ht
    | sqlite =>
      have hpre : Closes .sqlite
          "(SELECT COUNT(DISTINCT json_each.value) FROM json_each(".toList
          ([Token.mark '(', .word "SELECT", .word "COUNT", .mark '(', .word "DISTINCT",
            .word "json_each", .mark '.', .word "value", .mark ')'] ++
            [Token.word "FROM", .word "json_each", .mark '(']) := rfl
      have hpost : Closes .sqlite ")) = ".toList ([Token.mark ')', .mark ')'] ++ [Token.sign "="]) := rfl
      have hnumber : Reads .sqlite (Fragment.chars .sqlite [.word (toString vs.length)])
          [.word (toString vs.length)] := by
        simpa [Piece.chars] using Grammar.reads_number (d := .sqlite) vs.length
      exact reads_each hpre c ht hpost hnumber
  | overlaps vs =>
    cases d with
    | mysql =>
      have hpre : Closes .mysql "JSON_OVERLAPS(".toList [.word "JSON_OVERLAPS", .mark '('] := rfl
      exact reads_call hpre c ht
    | sqlite =>
      have hpre : Closes .sqlite "EXISTS (SELECT 1 FROM json_each(".toList
          ([Token.word "EXISTS", .mark '(', .word "SELECT", .word "1"] ++
            [Token.word "FROM", .word "json_each", .mark '(']) := rfl
      have hpost : Closes .sqlite "))".toList ([Token.mark ')', .mark ')'] ++ []) := rfl
      exact reads_each hpre c ht hpost Grammar.reads_nil
  | pathLike path pattern =>
    cases d with
    | mysql =>
      have hpre : Closes .mysql "CAST(JSON_UNQUOTE(JSON_EXTRACT(".toList
          [.word "CAST", .mark '(', .word "JSON_UNQUOTE", .mark '(', .word "JSON_EXTRACT",
            .mark '('] := rfl
      have hrest : Closes .mysql
          (Fragment.chars .mysql [.word ", ", .slot path, .word ")) AS CHAR) LIKE ", .slot pattern])
          [.mark ',', .slot, .mark ')', .mark ')', .word "AS", .word "CHAR", .mark ')',
            .word "LIKE", .slot] := rfl
      exact Grammar.reads_column hpre c rfl rfl hrest.reads
    | sqlite =>
      have hpre : Closes .sqlite "CAST(json_extract(".toList
          [.word "CAST", .mark '(', .word "json_extract", .mark '('] := rfl
      have hrest : Closes .sqlite
          (Fragment.chars .sqlite [.word ", ", .slot path, .word ") AS TEXT) LIKE ", .slot pattern])
          [.mark ',', .slot, .mark ')', .word "AS", .word "TEXT", .mark ')', .word "LIKE",
            .slot] := rfl
      exact Grammar.reads_column hpre c rfl rfl hrest.reads

/-! ## As conditions -/

/-- A function is true of a column and an array of placeholders. -/
def callCondition (function : String) (c : ColumnRef) (n : Nat) : Condition :=
  .holds function [.column c, .call "JSON_ARRAY" (List.replicate n .slot)]

/-- The elements of a column's array that are among placeholders: where they come from, and what
they are chosen by. -/
def eachSource (c : ColumnRef) : Term := .call "json_each" [.column c]

/-- The condition by which elements are chosen. -/
def eachFilter (n : Nat) : Condition :=
  .oneOf (.inner "json_each" "value") (List.replicate n .slot)

/-- A column's array contains `n` values. -/
def containsCondition (d : Dialect) (c : ColumnRef) (n : Nat) : Condition :=
  match d with
  | .mysql => callCondition "JSON_CONTAINS" c n
  | .sqlite =>
    .compare (.selection (.call "COUNT" [.distinct (.inner "json_each" "value")]) (eachSource c)
      (eachFilter n)) .equal (.number (toString n))

/-- A column's array shares one of `n` values. -/
def overlapsCondition (d : Dialect) (c : ColumnRef) (n : Nat) : Condition :=
  match d with
  | .mysql => callCondition "JSON_OVERLAPS" c n
  | .sqlite => .exists_ (.number "1") (eachSource c) (eachFilter n)

/-- The text at a path of a column matches a pattern. -/
def pathCondition (d : Dialect) (c : ColumnRef) : Condition :=
  match d with
  | .mysql =>
    .like (.call "CAST" [.typed (.call "JSON_UNQUOTE" [.call "JSON_EXTRACT" [.column c, .slot]])
      "CHAR"]) .slot
  | .sqlite => .like (.call "CAST" [.typed (.call "json_extract" [.column c, .slot]) "TEXT"]) .slot

/-- What a test on a column says. -/
def condition (d : Dialect) (c : ColumnRef) : JsonTest → Condition
  | .contains vs => containsCondition d c vs.length
  | .overlaps vs => overlapsCondition d c vs.length
  | .pathLike .. => pathCondition d c

/-- A call is parsed as its condition. -/
theorem parses_call {function : String}
    (hcall : ∀ ts x, Grammar.factor [.token (.word function), .group (some ts) x] =
      some (.holds function ts))
    (hwords : Undivided [.token (.word function)]) (c : ColumnRef) {n : Nat} (hn : n ≠ 0) :
    Parses (callTokens function c n) (callCondition function c n) := by
  have harray := (Grammar.brackets_slots n).call "JSON_ARRAY"
  have hinner := c.brackets.append
    ((Grammar.brackets_token (t := .mark ',') (by simp) (by simp)).append harray)
  have hb := hinner.call function
  have hterms : Grammar.arguments (c.items ++ .token (.mark ',') ::
      [.token (.word "JSON_ARRAY"), .group (Grammar.arguments (Grammar.slotItems n))
        (Grammar.condition (Grammar.slotItems n))]) =
      some [.column c, .call "JSON_ARRAY" (List.replicate n .slot)] := by
    refine Grammar.arguments_cons c.not_comma (Grammar.argument_column c) ?_
    rw [Grammar.arguments_slots n hn]
    rfl
  refine Parses.intro (by simpa [callTokens] using hb) ?_ ?_
  · simp only [hterms, hcall, callCondition]
  · simpa [Undivided, Item.isWord] using hwords

/-- The items from FROM on, when the elements of an array are taken. -/
def eachItems (c : ColumnRef) (n : Nat) : List Item :=
  [.token (.word "FROM"), .token (.word "json_each"),
    .group (Grammar.arguments c.items) (Grammar.condition c.items), .token (.word "WHERE"),
    .token (.word "json_each"), .token (.mark '.'), .token (.word "value"), .token (.word "IN"),
    .group (Grammar.arguments (Grammar.slotItems n)) (Grammar.condition (Grammar.slotItems n))]

/-- A walk over an array in brackets. -/
theorem brackets_each (c : ColumnRef) (n : Nat) :
    Brackets ([Token.word "FROM", .word "json_each", .mark '('] ++ (c.tokens ++ ([Token.mark ')',
      .word "WHERE", .word "json_each", .mark '.', .word "value", .word "IN", .mark '('] ++
      (Grammar.slotTokens n ++ [Token.mark ')'])))) (eachItems c n) := by
  have hfrom : Brackets [.word "FROM"] [.token (.word "FROM")] :=
    Grammar.brackets_token (by simp) (by simp)
  have hsource := c.brackets.call "json_each"
  have hwhere : Brackets [.word "WHERE", .word "json_each", .mark '.', .word "value"]
      [.token (.word "WHERE"), .token (.word "json_each"), .token (.mark '.'),
        .token (.word "value")] := Grammar.brackets_tokens (by simp)
  have hslots := (Grammar.brackets_slots n).call "IN"
  simpa [eachItems] using hfrom.append (hsource.append (hwhere.append hslots))

/-- Selecting something from the elements of an array is one term. -/
theorem arguments_select {what : List Item} {t : Term} (hwhat : Grammar.term what = some t)
    (hfrom : ∀ i ∈ what, i.isWord "FROM" = false) (hcomma : ∀ i ∈ what, i.isComma = false)
    (c : ColumnRef) {n : Nat} (hn : n ≠ 0) :
    Grammar.arguments (.token (.word "SELECT") :: (what ++ eachItems c n)) =
      some [.selection t (eachSource c) (eachFilter n)] := by
  have hsource : Grammar.term [.token (.word "json_each"),
      .group (some [.column c]) (Grammar.condition c.items)] = some (eachSource c) := rfl
  have hfilter : Grammar.condition [.token (.word "json_each"), .token (.mark '.'),
      .token (.word "value"), .token (.word "IN"), .group (some (List.replicate n .slot))
        (Grammar.condition (Grammar.slotItems n))] = some (eachFilter n) := rfl
  refine Grammar.arguments_single ?_ ?_
  · simpa [eachItems, Item.isComma, or_imp, forall_and] using hcomma
  · rw [Grammar.argument, Grammar.selection, eachItems, Grammar.arguments_column,
      Grammar.arguments_slots n hn, List.splitOnP_append_cons_of_forall_mem hfrom _ rfl]
    simp [List.splitOnP_cons_eq_if_modifyHead, Item.isWord, hwhat, hsource, hfilter]

/-- A select from a walk in brackets. -/
theorem brackets_select {ts : List Token} {items : List Item} (h : Brackets ts items)
    (c : ColumnRef) (n : Nat) :
    Brackets (.word "SELECT" :: (ts ++ ([Token.word "FROM", .word "json_each", .mark '('] ++
      (c.tokens ++ ([Token.mark ')', .word "WHERE", .word "json_each", .mark '.', .word "value",
        .word "IN", .mark '('] ++ (Grammar.slotTokens n ++ [Token.mark ')']))))))
      (.token (.word "SELECT") :: (items ++ eachItems c n)) := by
  have hselect : Brackets [.word "SELECT"] [.token (.word "SELECT")] :=
    Grammar.brackets_token (by simp) (by simp)
  exact hselect.append (h.append (brackets_each c n))

/-- A count of matches is parsed as containment. -/
theorem parses_count (c : ColumnRef) {n : Nat} (hn : n ≠ 0) :
    Parses (eachTokens [.mark '(', .word "SELECT", .word "COUNT", .mark '(', .word "DISTINCT",
      .word "json_each", .mark '.', .word "value", .mark ')'] c n [.sign "=", .word (toString n)])
      (containsCondition .sqlite c n) := by
  have hvalue : Brackets [.word "DISTINCT", .word "json_each", .mark '.', .word "value"]
      [.token (.word "DISTINCT"), .token (.word "json_each"), .token (.mark '.'),
        .token (.word "value")] := Grammar.brackets_tokens (by simp)
  have hequals : Brackets [.sign "=", .word (toString n)]
      [.token (.sign "="), .token (.word (toString n))] := Grammar.brackets_tokens (by simp)
  have hb := (brackets_select (hvalue.call "COUNT") c n).group.append hequals
  rw [arguments_select (t := .call "COUNT" [.distinct (.inner "json_each" "value")]) rfl
    (by simp [Item.isWord]) (by simp [Item.isComma]) c hn] at hb
  refine Parses.intro (by simpa [eachTokens] using hb) ?_ ?_
  · exact Grammar.factor_compare [_] (by simp [Item.isTest]) rfl rfl (Grammar.term_number n)
  · have hand := Grammar.toString_ne (w := "AND") n ⟨'A', by simp, by decide⟩
    have hor := Grammar.toString_ne (w := "OR") n ⟨'O', by simp, by decide⟩
    simpa [Undivided, Item.isWord] using And.intro hand hor

/-- A test for a match is parsed as overlap. -/
theorem parses_exists (c : ColumnRef) {n : Nat} (hn : n ≠ 0) :
    Parses (eachTokens [.word "EXISTS", .mark '(', .word "SELECT", .word "1"] c n [])
      (overlapsCondition .sqlite c n) := by
  have hone : Brackets [.word "1"] [.token (.word "1")] :=
    Grammar.brackets_token (by simp) (by simp)
  have hb := (brackets_select hone c n).call "EXISTS"
  rw [arguments_select (t := .number "1") rfl (by simp [Item.isWord]) (by simp [Item.isComma])
    c hn] at hb
  refine Parses.intro (by simpa [eachTokens] using hb) rfl ?_
  simp [Undivided, Item.isWord]

/-- A column and a placeholder are two terms. -/
theorem arguments_columnSlot (c : ColumnRef) :
    Grammar.arguments (c.items ++ [Item.token (.mark ','), .token .slot]) = some [.column c, .slot] :=
  Grammar.arguments_cons c.not_comma (Grammar.argument_column c) rfl

/-- A column and a slot are two arguments. -/
theorem brackets_columnSlot (c : ColumnRef) :
    Brackets (c.tokens ++ [Token.mark ',', .slot]) (c.items ++ [Item.token (.mark ','), .token .slot]) :=
  c.brackets.append (Grammar.brackets_tokens (by simp))

/-- A term with a type, matched with a placeholder. -/
theorem parses_cast {ts : List Token} {items : List Item} {t : Term} (type : String)
    (h : Brackets ts items)
    (ht : Grammar.arguments (items ++ [Item.token (.word "AS"), .token (.word type)]) =
      some [.typed t type]) :
    Parses (.word "CAST" :: .mark '(' :: (ts ++ [Token.word "AS", .word type] ++ [Token.mark ')']) ++
      [Token.word "LIKE", .slot]) (.like (.call "CAST" [.typed t type]) .slot) := by
  have htype : Brackets [.word "AS", .word type] [.token (.word "AS"), .token (.word type)] :=
    Grammar.brackets_tokens (by simp)
  have hlike : Brackets [.word "LIKE", .slot] [.token (.word "LIKE"), .token .slot] :=
    Grammar.brackets_tokens (by simp)
  have hb := ((h.append htype).call "CAST").append hlike
  rw [ht] at hb
  refine Parses.intro hb (Grammar.factor_like [_, _] (by simp [Item.isTest]) rfl rfl) ?_
  simp [Undivided, Item.isWord]

/-- A test of a path is parsed as its condition. -/
theorem parses_path (c : ColumnRef) (path pattern : Value) :
    Parses (tokens d c (.pathLike path pattern)) (pathCondition d c) := by
  cases d with
  | mysql =>
    have hextract := (brackets_columnSlot c).call "JSON_EXTRACT"
    have hb := hextract.call "JSON_UNQUOTE"
    rw [arguments_columnSlot] at hb
    have hp := parses_cast "CHAR" (t := .call "JSON_UNQUOTE" [.call "JSON_EXTRACT" [.column c, .slot]])
      hb rfl
    simpa [tokens, pathCondition] using hp
  | sqlite =>
    have hb := (brackets_columnSlot c).call "json_extract"
    rw [arguments_columnSlot] at hb
    have hp := parses_cast "TEXT" (t := .call "json_extract" [.column c, .slot]) hb rfl
    simpa [tokens, pathCondition] using hp

/-- Every test is read back as one condition. -/
theorem parses (c : ColumnRef) (t : JsonTest) (ht : t.IsProper) :
    Parses (t.tokens d c) (t.condition d c) := by
  cases t with
  | contains vs =>
    have hn : vs.length ≠ 0 := by simpa [IsProper] using ht
    cases d with
    | mysql => exact parses_call (fun _ _ => rfl) (by simp [Undivided, Item.isWord]) c hn
    | sqlite => exact parses_count c hn
  | overlaps vs =>
    have hn : vs.length ≠ 0 := by simpa [IsProper] using ht
    cases d with
    | mysql => exact parses_call (fun _ _ => rfl) (by simp [Undivided, Item.isWord]) c hn
    | sqlite => exact parses_exists c hn
  | pathLike path pattern => exact parses_path c path pattern

end JsonTest

end Quarry.Sql
