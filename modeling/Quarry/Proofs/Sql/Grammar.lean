import Quarry.Proofs.Sql.Token
import Quarry.Sql.Condition

/-!
# Reading conditions

The second step of reading a statement back: the tokens of a condition become a tree. Parentheses
are matched first, and what stands in a pair of them becomes one item, which has been read both as a
list of terms and as a condition of its own. A row of items is then a condition by the precedence of
SQL: it is cut at every OR, the parts are cut at every AND, and each of their parts is a condition
in parentheses or a predicate on terms. So AND binds tighter than OR, and nothing but parentheses
changes that.

The grammar knows the predicates of search conditions: comparisons, IN, LIKE, IS NULL and IS NOT
NULL, EXISTS, and functions that are true or false. Terms are columns, placeholders, numbers, calls
of functions, and selections of one term.
-/

set_option autoImplicit false

namespace Quarry.Sql.Grammar

mutual

/-- What has a value in a statement. -/
inductive Term where
  | column (ref : ColumnRef)
  /-- A column of a table function, neither of them quoted. -/
  | inner (owner name : String)
  | number (digits : String)
  | slot
  | call (function : String) (arguments : List Term)
  | distinct (t : Term)
  | typed (t : Term) (type : String)
  | selection (what source : Term) (filter : Condition)

/-- What is true or false in a statement. -/
inductive Condition where
  | compare (left : Term) (by_ : Comparison) (right : Term)
  | isNull (t : Term)
  | isNotNull (t : Term)
  | oneOf (t : Term) (items : List Term)
  | like (t pattern : Term)
  | holds (function : String) (arguments : List Term)
  | exists_ (what source : Term) (filter : Condition)
  /-- Conditions that all hold. -/
  | all (parts : List Condition)
  /-- Conditions one of which holds. -/
  | any (parts : List Condition)

end

/-- Conditions joined by AND; a single one stays as it is. -/
def Condition.allOf : List Condition → Condition
  | [c] => c
  | cs => .all cs

/-- Conditions joined by OR; a single one stays as it is. -/
def Condition.anyOf : List Condition → Condition
  | [c] => c
  | cs => .any cs

/-- A token, or what stands in parentheses with its two readings. -/
inductive Item where
  | token (t : Token)
  | group (terms : Option (List Term)) (condition : Option Condition)

/-- Whether an item is a certain word. -/
def Item.isWord (w : String) : Item → Bool
  | .token (.word v) => v == w
  | _ => false

/-- Whether an item is a comma. -/
def Item.isComma : Item → Bool
  | .token (.mark c) => c == ','
  | _ => false

/-- Whether an item says how the term in front of it is tested. -/
def Item.isTest : Item → Bool
  | .token (.sign _) => true
  | .token (.word w) => w == "IN" || w == "LIKE" || w == "IS"
  | _ => false

/-- The comparison of a sign. -/
def comparison? : String → Option Comparison
  | "=" => some .equal
  | "!=" => some .notEqual
  | "<>" => some .different
  | ">" => some .greater
  | "<" => some .less
  | ">=" => some .greaterOrEqual
  | "<=" => some .lessOrEqual
  | _ => none

/-- Items as a term. -/
def term : List Item → Option Term
  | [.token (.name c)] => some (.column (.plain c))
  | [.token (.name t), .token (.mark '.'), .token (.name c)] => some (.column (.qualified t c))
  | [.token (.name t), .token (.mark '.'), .token (.mark '*')] => some (.column (.star t))
  | [.token (.word t), .token (.mark '.'), .token (.word c)] => some (.inner t c)
  | [.token .slot] => some .slot
  | [.token (.word w)] => if w.toList.all Char.isDigit then some (.number w) else none
  | [.token (.word f), .group (some ts) _] => some (.call f ts)
  | [.group (some [t]) _] => some t
  | _ => none

/-- Items as a predicate: a term and how it is tested, EXISTS, or a function. -/
def predicate (items : List Item) : Option Condition :=
  match items.takeWhile (!·.isTest), items.dropWhile (!·.isTest) with
  | left, .token (.sign s) :: right => do
    return .compare (← term left) (← comparison? s) (← term right)
  | left, .token (.word "LIKE") :: right => do return .like (← term left) (← term right)
  | left, [.token (.word "IN"), .group (some ts) _] => do return .oneOf (← term left) ts
  | left, [.token (.word "IS"), .token (.word "NULL")] => do return .isNull (← term left)
  | left, [.token (.word "IS"), .token (.word "NOT"), .token (.word "NULL")] => do
    return .isNotNull (← term left)
  | [.token (.word "EXISTS"), .group (some [.selection what source filter]) _], [] =>
    some (.exists_ what source filter)
  | left, [] =>
    match term left with
    | some (.call f ts) => some (.holds f ts)
    | _ => none
  | _, _ => none

/-- Items as a condition in parentheses or a predicate. -/
def factor : List Item → Option Condition
  | [.group _ (some c)] => some c
  | items => predicate items

/-- Items as factors joined by AND. -/
def conjunction (items : List Item) : Option Condition :=
  ((items.splitOnP (Item.isWord "AND")).mapM factor).map .allOf

/-- Items as conjunctions joined by OR. -/
def condition (items : List Item) : Option Condition :=
  ((items.splitOnP (Item.isWord "OR")).mapM conjunction).map .anyOf

/-- Items as a selection of one term. -/
def selection (items : List Item) : Option Term :=
  match items.splitOnP (Item.isWord "FROM") with
  | [what, rest] =>
    match rest.splitOnP (Item.isWord "WHERE") with
    | [source, filter] => do return .selection (← term what) (← term source) (← condition filter)
    | _ => none
  | _ => none

/-- Items as one of the terms in parentheses: a term, one with a type, one taken without
repetitions, or a selection. -/
def argument (items : List Item) : Option Term :=
  match items with
  | .token (.word "SELECT") :: rest => selection rest
  | .token (.word "DISTINCT") :: rest => (term rest).map .distinct
  | _ =>
    match items.splitOnP (Item.isWord "AS") with
    | [t, [.token (.word type)]] => (term t).map (.typed · type)
    | _ => term items

/-- Items as terms with commas between them. -/
def arguments (items : List Item) : Option (List Term) :=
  (items.splitOnP Item.isComma).mapM argument

/-- Match parentheses. The list holds what has been read in each pair that is open, the innermost
first. -/
def bracket : List (List Item) → List Token → Option (List Item)
  | [items], [] => some items
  | _, [] => none
  | open_, .mark '(' :: ts => bracket ([] :: open_) ts
  | inner :: outer :: below, .mark ')' :: ts =>
    bracket ((outer ++ [.group (arguments inner) (condition inner)]) :: below) ts
  | _, .mark ')' :: _ => none
  | items :: below, t :: ts => bracket ((items ++ [.token t]) :: below) ts
  | [], _ => none

/-- The condition that a text is, none for a text without tokens. -/
def read (d : Dialect) (text : String) : Option (Option Condition) := do
  let ts ← tokens? d text.toList
  let items ← bracket [[]] ts
  if items.isEmpty then return none else return some (← condition items)

end Quarry.Sql.Grammar
