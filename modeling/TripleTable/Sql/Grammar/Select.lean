import TripleTable.Sql.Grammar.Relation
set_option autoImplicit false

/-!
The bodies of queries: one SELECT block, a list of rows, a query in parentheses, and combinations of
them.
-/
namespace TripleTable.Sql.Grammar

open Sql.Parser

def excluded : Parser Text := do
  if ← seesSymbol "(" then
    return '(' :: Text.join ", " ((← columnList).map Ident.text) ++ [')']
  else return (← ident).text

def exclude : Parser (List Part) := do
  match ← after? "EXCLUDE" excluded with
  | some columns => return [.words (" EXCLUDE " ++ columns)]
  | none => return []

def except : Parser (List Part) := do
  if ← keyword? "EXCEPT" then
    let columns ← if ← seesSymbol "(" then columnList else pure [← ident]
    return [.words (" EXCEPT (" ++ Text.join ", " (columns.map Ident.text) ++ ")")]
  else return []

def renamedColumn : Parser Text := do
  let name ← ident
  keyword "AS"
  return name.text ++ " AS " ++ (← ident).text

def renamedColumns : Parser (List Part) := do
  if ← keyword? "RENAME" then
    if ← seesSymbol "(" then
      let pairs ← parenthesized (commaSeparated renamedColumn)
      return [.words (" RENAME (" ++ Text.join ", " pairs ++ ")")]
    else return [.words (" RENAME " ++ (← renamedColumn))]
  else return []

def replacement (g : Grammar) : Parser (List Part) := do
  let e ← g.expr
  let lead : Text := if ← keyword? "AS" then " AS " else " "
  return [.operand e, .words (lead ++ (← ident).text)]

def replacements (g : Grammar) : Parser (List Part) := do
  if ← keyword? "REPLACE" then
    let items ← parenthesized (commaSeparated g.replacement)
    return .words " REPLACE (" :: separated ", " items ++ [.words ")"]
  else return []

def wildcardOptions (g : Grammar) : Parser (List Part) :=
  return (← exclude) ++ (← except) ++ (← renamedColumns) ++ (← g.replacements)

def item (g : Grammar) : Parser Item := do
  match ← attempt wildcard with
  | some [] => return .parts (.words "*" :: (← g.wildcardOptions))
  | some names => return .qualifiedWildcard names (← g.wildcardOptions)
  | none =>
    let e ← g.expr
    match ← aliasName reservedAfterColumn with
    | some name => return .parts [.operand e, .words (" AS " ++ name.text)]
    | none => return .parts [.operand e]

def top (g : Grammar) : Parser (List Part) := do
  if ← keyword? "TOP" then
    let quantity : List Part ←
      if ← symbol? "(" then
        let e ← g.expr
        symbol ")"
        pure [.words " TOP (", .operand e, .words ")"]
      else pure [.words (" TOP " ++ Text.ofNat (← count))]
    let percent ← optionalWord "PERCENT"
    let ties : Text ← if ← keywords? ["WITH", "TIES"] then pure (" WITH TIES" : Text) else pure []
    return quantity ++ [.words (percent ++ ties)]
  else return []

def target : Parser Text := do
  if ← keyword? "INTO" then
    let temporary := (← oneOf? ["TEMP", "TEMPORARY"]).isSome
    let unlogged ← optionalWord "UNLOGGED"
    let table ← optionalWord "TABLE"
    return (if temporary then (" INTO TEMPORARY" : Text) else " INTO") ++ unlogged ++ table ++
      " " ++ (← dotted).text
  else return []

def lateralView (g : Grammar) : Parser (Option (List Part)) := do
  if ← keywords? ["LATERAL", "VIEW"] then
    let outer ← optionalWord "OUTER"
    let e ← g.expr
    let name ← dotted
    let columns :=
      (← commaSeparated (aliasName ["WHERE", "GROUP", "CLUSTER", "HAVING", "LATERAL"])).filterMap id
    let names : Text :=
      if columns.isEmpty then [] else " AS " ++ Text.join ", " (columns.map Ident.text)
    return some [.words (" LATERAL VIEW" ++ outer ++ " "), .operand e,
      .words (" " ++ name.text ++ names)]
  else return none

def tuple (g : Grammar) (bare : Bool) : Parser (List Expr) := do
  if bare then
    unless ← seesSymbol "(" do return [← g.expr]
  symbol "("
  if ← symbol? ")" then return []
  let exprs ← commaSeparated g.expr
  symbol ")"
  return exprs

def tupleParts (bare : Bool) : List Expr → List Part
  | [e] => if bare then [.operand e] else [.words "(", .operand e, .words ")"]
  | exprs => .words "(" :: listed exprs ++ [.words ")"]

def groupingSets (g : Grammar) (lead : Text) (bare : Bool) : Parser (List Part) := do
  let sets ← parenthesized (commaSeparated (g.tuple bare))
  return .words (lead ++ " (") :: separated ", " (sets.map (tupleParts bare)) ++ [.words ")"]

def groupingItem (g : Grammar) : Parser (List Part) := do
  if ← keywords? ["GROUPING", "SETS"] then g.groupingSets "GROUPING SETS" false
  else if ← keyword? "CUBE" then g.groupingSets "CUBE" true
  else if ← keyword? "ROLLUP" then g.groupingSets "ROLLUP" true
  else return [.operand (← g.expr)]

def grouping (g : Grammar) : Parser (List Part) := do
  if ← keywords? ["GROUP", "BY"] then
    if ← keyword? "ALL" then return [.words " GROUP BY ALL"]
    return .words " GROUP BY " :: separated ", " (← commaSeparated g.groupingItem)
  else return []

def clause (g : Grammar) (keywords : List String) (lead : Text) : Parser (List Part) := do
  match ← afterAll? keywords (commaSeparated g.expr) with
  | some exprs => return .words lead :: listed exprs
  | none => return []

def condition (g : Grammar) (first : String) (lead : Text) : Parser (List Part) :=
  return maybeParts lead (← after? first g.expr)

def namedWindow (g : Grammar) : Parser (List Part) := do
  let name ← ident
  keyword "AS"
  symbol "("
  return .words (name.text ++ " AS (") :: (← g.windowDefinition) ++ [.words ")"]

def windows (g : Grammar) : Parser (List Part) := do
  match ← after? "WINDOW" (commaSeparated g.namedWindow) with
  | some items => return .words " WINDOW " :: separated ", " items
  | none => return []

def sources (g : Grammar) : Parser (List Source) := fun tokens =>
  (return (← after? "FROM" (commaSeparated (g.source (tokens.length + 1)))).getD []) tokens

def select (g : Grammar) : Parser Select := do
  let distinct := (← g.distinct).getD []
  let top ← g.top
  let projection ← commaSeparated g.item
  let target ← target
  let sources ← g.sources
  let views ← many g.lateralView
  let selection ← after? "WHERE" g.expr
  let grouping ← g.grouping
  let cluster ← g.clause ["CLUSTER", "BY"] " CLUSTER BY "
  let distribute ← g.clause ["DISTRIBUTE", "BY"] " DISTRIBUTE BY "
  let sort ← g.clause ["SORT", "BY"] " SORT BY "
  let having ← g.condition "HAVING" " HAVING "
  let windows ← g.windows
  let qualify ← g.condition "QUALIFY" " QUALIFY "
  return {
    head := distinct ++ top
    projection := projection
    target := target
    sources := sources
    views := views.flatten
    selection := selection
    tail := grouping ++ cluster ++ distribute ++ sort ++ having ++ windows ++ qualify }

def row (g : Grammar) : Parser (Bool × List Expr) := do
  let marked ← keyword? "ROW"
  return (marked, ← parenthesized (commaSeparated g.expr))

def values (g : Grammar) : Parser (List Part) := do
  let rows ← commaSeparated g.row
  let lead : Text := if rows.any Prod.fst then "ROW(" else "("
  return .words "VALUES " :: separated ", " (rows.map fun (_, exprs) =>
    .words lead :: listed exprs ++ [.words ")"])

-- A whole table as a query body: two names with a period between them, or one name, behind which
-- two more tokens are passed over.
def wholeTable : List Token → Option (Text × List Token)
  | .word schema :: .symbol "." :: .word table :: rest =>
    some ("TABLE " ++ schema.value ++ "." ++ table.value, rest)
  | .word _ :: .symbol "." :: _ => none
  | .word table :: rest => some ("TABLE " ++ table.value, rest.drop 2)
  | _ => none

def plainBody (g : Grammar) : Parser Body := do
  if ← keyword? "SELECT" then return .select (← g.select)
  else if ← symbol? "(" then
    let rows ← g.query
    symbol ")"
    return .nested rows
  else if ← keyword? "VALUES" then return .other (← g.values)
  else
    keyword "TABLE"
    return .other [.words (← wholeTable)]

def setOperators : List (String × Nat × SetOperator) := [
  ("UNION", 10, .union), ("EXCEPT", 10, .except), ("INTERSECT", 20, .intersect)]

def quantifier (op : SetOperator) : Parser Text := do
  if op = .union then
    if ← keywords? ["DISTINCT", "BY", "NAME"] then return " DISTINCT BY NAME"
    if ← keywords? ["BY", "NAME"] then return " BY NAME"
    if ← keywords? ["ALL", "BY", "NAME"] then return " ALL BY NAME"
  if ← keyword? "ALL" then return " ALL"
  else optionalWord "DISTINCT"

def combine (right : Nat → Parser Body) (above : Nat) : Nat → Body → Parser Body
  | 0, _ => failure
  | n + 1, left => fun tokens =>
    match tokens with
    | .word name :: rest =>
      match setOperators.lookup name.keyword with
      | some (rank, op) =>
        if above < rank then
          (do
            let quantifier ← quantifier op
            combine right above n (.combined left op quantifier (← right rank))) rest
        else some (left, tokens)
      | none => some (left, tokens)
    | _ => some (left, tokens)

def body (g : Grammar) : Nat → Nat → Parser Body
  | 0, _ => failure
  | n + 1, above => do combine (g.body n) above (n + 1) (← g.plainBody)

end TripleTable.Sql.Grammar
