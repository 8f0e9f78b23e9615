import TripleTable.Sql.Grammar.Function
set_option autoImplicit false

/-!
Expressions: operands, and the operators that bind what stands between them. An operator of a
greater rank binds closer; equal ranks bind from the left.
-/
namespace TripleTable.Sql.Grammar

open Sql.Parser

def operatorSymbols : List (String × Nat × BinaryOp) := [
  ("=", comparisonRank, .compare .eq), ("==", comparisonRank, .compare .eq),
  ("<", comparisonRank, .compare .lt), ("<=", comparisonRank, .compare .le),
  (">", comparisonRank, .compare .gt), (">=", comparisonRank, .compare .ge),
  ("<>", comparisonRank, .compare .ne), ("!=", comparisonRank, .compare .ne),
  ("<=>", comparisonRank, .other "<=>"), ("~", comparisonRank, .other "~"),
  ("~*", comparisonRank, .other "~*"), ("!~", comparisonRank, .other "!~"),
  ("!~*", comparisonRank, .other "!~*"), ("~~", comparisonRank, .other "~~"),
  ("~~*", comparisonRank, .other "~~*"), ("!~~", comparisonRank, .other "!~~"),
  ("!~~*", comparisonRank, .other "!~~*"),
  ("|", 21, .other "|"), ("^", 22, .other "^"), ("<<", 22, .other "<<"), (">>", 22, .other ">>"),
  ("&", 23, .other "&"), ("+", 30, .other "+"), ("-", 30, .other "-"),
  ("*", factorRank, .other "*"), ("/", factorRank, .other "/"), ("%", factorRank, .other "%"),
  ("||", factorRank, .other "||"), ("//", factorRank, .other "//"), ("^@", accessRank, .other "^@"),
  ("&&", accessRank, .other "&&")]

def operatorWords : List (String × Nat × BinaryOp) := [
  ("AND", andRank, .and), ("OR", orRank, .or), ("XOR", 24, .other "XOR"),
  ("DIV", factorRank, .other "DIV")]

def arrows : List String := ["->", "->>", "#>", "#>>", "@>", "<@", "#-", "@?", "@@"]

def accessSymbols : List String := ["::", ":", "[", "!"]

def predicateWords : List (String × Nat) := [
  ("IN", comparisonRank), ("BETWEEN", comparisonRank), ("LIKE", likeRank), ("ILIKE", likeRank),
  ("SIMILAR", likeRank), ("REGEXP", likeRank), ("RLIKE", likeRank)]

def rankOf : List Token → Nat
  | .symbol symbol :: _ =>
    match operatorSymbols.lookup symbol with
    | some (rank, _) => rank
    | none => if symbol ∈ accessSymbols ∨ symbol ∈ arrows then accessRank else 0
  | .word name :: rest =>
    match operatorWords.lookup name.keyword with
    | some (rank, _) => rank
    | none =>
      if name.keyword = "IS" then isRank
      else if name.keyword = "OPERATOR" then comparisonRank
      else if name.keyword = "NOT" then
        match rest with
        | .word other :: _ => (predicateWords.lookup other.keyword).getD 0
        | _ => 0
      else if name.keyword = "AT" then
        match rest with
        | .word time :: .word zone :: _ =>
          if time.keyword = "TIME" ∧ zone.keyword = "ZONE" then comparisonRank else 0
        | _ => 0
      else (predicateWords.lookup name.keyword).getD 0
  | _ => 0

def position (g : Grammar) (lower : Lower) : Parser Expr := parenthesized do
  let e ← lower.above comparisonRank
  keyword "IN"
  return .form [.words "POSITION(", .operand e, .words " IN ", .operand (← g.expr), .words ")"]

def introducedString (name : Ident) : Parser (Option Expr)
  | .string content :: rest =>
    if name.value.head? = some '_' then
      some (some (.form [.words (name.value ++ " " ++ (Expr.string content).text)]), rest)
    else some (none, .string content :: rest)
  | .literal ('X' :: written) :: rest =>
    if name.value.head? = some '_' then
      some (some (.form [.words (name.value ++ " X" ++ written)]), rest)
    else some (none, .literal ('X' :: written) :: rest)
  | tokens => some (none, tokens)

def named (g : Grammar) (lower : Lower) (name : Ident) : Parser Expr := do
  match ← introducedString name with
  | some e => return e
  | none =>
    let more ← many do
      if ← symbol? "." then return some (← ident) else return none
    if ← seesSymbol "(" then g.function lower (name :: more)
    else if more.isEmpty then return .column name
    else return .path (name :: more)

def specialForms (g : Grammar) (lower : Lower) : List (String × (Ident → Parser Expr)) := [
  ("TRUE", fun _ => return .boolean true),
  ("FALSE", fun _ => return .boolean false),
  ("NULL", fun _ => return .null),
  ("CURRENT_CATALOG", fun name => return .form [.words name.text]),
  ("CURRENT_USER", fun name => return .form [.words name.text]),
  ("SESSION_USER", fun name => return .form [.words name.text]),
  ("USER", fun name => return .form [.words name.text]),
  ("CURRENT_TIMESTAMP", g.clockFunction),
  ("CURRENT_TIME", g.clockFunction),
  ("CURRENT_DATE", g.clockFunction),
  ("LOCALTIME", g.clockFunction),
  ("LOCALTIMESTAMP", g.clockFunction),
  ("CASE", fun _ => g.cases),
  ("CONVERT", fun _ => g.convert),
  ("CAST", fun _ => g.cast "CAST"),
  ("TRY_CAST", fun _ => g.cast "TRY_CAST"),
  ("SAFE_CAST", fun _ => g.cast "SAFE_CAST"),
  ("EXISTS", fun _ => g.existence false),
  ("EXTRACT", fun _ => g.extract),
  ("CEIL", fun _ => g.rounding "CEIL"),
  ("FLOOR", fun _ => g.rounding "FLOOR"),
  ("POSITION", fun name => do
    if ← seesSymbol "(" then g.position lower else g.named lower name),
  ("SUBSTRING", fun _ => g.substring),
  ("OVERLAY", fun _ => g.overlay),
  ("TRIM", fun _ => g.trimming),
  ("INTERVAL", fun _ => failure),
  ("LISTAGG", fun _ => g.listAggregate),
  ("ARRAY_AGG", fun _ => g.arrayAggregate),
  ("ARRAY", fun name => do
    if ← symbol? "[" then g.array "ARRAY"
    else if ← seesSymbol "(" then g.arrayOfRows
    else g.named lower name),
  ("NOT", fun _ => do
    if ← keyword? "EXISTS" then g.existence true
    else return .unary .not (← lower.above notRank)),
  ("MATCH", fun _ => search),
  ("STRUCT", fun _ => g.structureLiteral)]

def typedLiteral (lower : Lower) : Parser Expr := do
  let type ← completeType
  match type.kind with
  | .interval => interval lower
  | .custom => failure
  | .ordinary => return .form [.words (type.text ++ " " ++ (Expr.string (← literalText)).text)]

def group (g : Grammar) : Parser Expr := do
  if ← seesKeyword ["SELECT", "WITH"] then
    let rows ← g.query
    symbol ")"
    return .subquery rows
  else
    let exprs ← commaSeparated g.expr
    symbol ")"
    match exprs with
    | [e] => return .nested e
    | _ => return .form (.words "(" :: listed exprs ++ [.words ")"])

def plainOperand (g : Grammar) (lower : Lower) : Parser Expr := do
  match ← next with
  | .word name =>
    match (g.specialForms lower).lookup name.keyword with
    | some read => read name
    | none => g.named lower name
  | .number digits long => return .number digits long
  | .string value => return .string value
  | .escaped value => return .form [.words (escapedText value)]
  | .literal text => return .form [.words text]
  | .symbol "(" =>
    let inner ← g.group
    if ← symbol? "." then
      match ← next with
      | .word key => return .form [.operand inner, .words ("." ++ key.text)]
      | _ => failure
    else return inner
  | .symbol "[" => g.array []
  | .symbol "-" => return .unary .minus (← lower.above factorRank)
  | .symbol "+" => return .unary .plus (← lower.above factorRank)
  | .symbol ":" => return .form [.words (← placeholder ":")]
  | .symbol "@" => return .form [.words (← placeholder "@")]
  | _ => failure

def operand (g : Grammar) (lower : Lower) : Parser Expr := do
  match ← attempt (typedLiteral lower) with
  | some e => return e
  | none =>
    let e ← g.plainOperand lower
    if ← keyword? "COLLATE" then
      return .form [.operand e, .words (" COLLATE " ++ (← dotted).text)]
    else return e

def rightOperand (lower : Lower) (left : Expr) (op : BinaryOp) (rank : Nat) : Parser Expr := do
  match ← oneOf? ["ANY", "ALL"] with
  | some quantifier =>
    let right ← parenthesized (lower.above rank)
    match op with
    | .compare c =>
      return .form [.operand left, .words (" " ++ c.text ++ " " ++ quantifier ++ "("),
        .operand right, .words ")"]
    | _ => failure
  | none => return .binary left op (← lower.above rank)

def property (g : Grammar) (left : Expr) : Parser Expr := do
  let negated ← keyword? "NOT"
  let words : Text := " IS " ++ negation negated
  match ← oneOf? ["NULL", "TRUE", "FALSE", "UNKNOWN"] with
  | some what => return .form [.operand left, .words (words ++ what)]
  | none =>
    keyword "DISTINCT"
    keyword "FROM"
    return .form [.operand left, .words (words ++ "DISTINCT FROM "), .operand (← g.expr)]

def membership (g : Grammar) (left : Expr) (negated : Bool) : Parser Expr := do
  if ← keyword? "UNNEST" then
    return .form [.operand left, .words (" " ++ negation negated ++ "IN UNNEST("),
      .operand (← parenthesized g.expr), .words ")"]
  symbol "("
  if ← seesKeyword ["SELECT", "WITH"] then
    let rows ← g.query
    symbol ")"
    return .inSubquery left negated rows
  else
    let values ← commaSeparated g.expr
    symbol ")"
    return .form (.operand left :: .words (" " ++ negation negated ++ "IN (") :: listed values ++
      [.words ")"])

def betweenness (lower : Lower) (left : Expr) (negated : Bool) : Parser Expr := do
  let low ← lower.above comparisonRank
  keyword "AND"
  let high ← lower.above comparisonRank
  return .form [.operand left, .words (" " ++ negation negated ++ "BETWEEN "), .operand low,
    .words " AND ", .operand high]

def resemblance (lower : Lower) (left : Expr) (words : Text) : Parser Expr := do
  let pattern ← lower.above likeRank
  let escape : List Part ←
    if ← keyword? "ESCAPE" then pure [.words (" ESCAPE '" ++ [← literalChar, '\''])]
    else pure []
  return .form (.operand left :: .words words :: .operand pattern :: escape)

def predicate (g : Grammar) (lower : Lower) (left : Expr) (negated : Bool) (word : String) :
    Parser Expr := do
  let words : Text := " " ++ negation negated ++ word ++ " "
  match word with
  | "IN" => g.membership left negated
  | "BETWEEN" => betweenness lower left negated
  | "SIMILAR" =>
    keyword "TO"
    resemblance lower left (words ++ "TO ")
  | "LIKE" => resemblance lower left words
  | "ILIKE" => resemblance lower left words
  | _ => return .form [.operand left, .words words, .operand (← lower.above likeRank)]

def operatorPart : Parser Text := do
  match ← next with
  | .word name => return name.bare
  | .symbol "!=" => return "<>"
  | .symbol symbol => return symbol.toList
  | .number digits long => return (Expr.number digits long).text
  | .string content => return '\'' :: content ++ ['\'']
  | .escaped content => return "E'" ++ content ++ "'"
  | .literal written => return written

def customOperator : Parser BinaryOp := do
  let parts ← parenthesized (items "." operatorPart)
  return .other (String.ofList ("OPERATOR(" ++ Text.join "." parts ++ ")"))

def rawString : Parser Text
  | .string content :: rest => some (content, rest)
  | _ => none

def subscript (g : Grammar) (left : Expr) : Parser Expr := do
  let index ← g.expr
  symbol "]"
  return .form [.operand left, .words "[", .operand index, .words "]"]

def continueSymbol (g : Grammar) (lower : Lower) (left : Expr) (symbol : String) :
    Parser Expr := do
  match operatorSymbols.lookup symbol with
  | some (rank, op) => rightOperand lower left op rank
  | none =>
    if symbol = "::" then return castTo "CAST" left (← dataType)
    else if symbol = "!" then return .form [.operand left, .words "!"]
    else if symbol = ":" then return .form [.operand left, .words (":" ++ (← value))]
    else if symbol = "[" then g.subscript left
    else return .form [.operand left, .words (" " ++ symbol ++ " "), .operand (← g.expr)]

def continueWord (g : Grammar) (lower : Lower) (left : Expr) (word : String) : Parser Expr := do
  match operatorWords.lookup word with
  | some (rank, op) => rightOperand lower left op rank
  | none =>
    if word = "IS" then g.property left
    else if word = "AT" then
      keyword "TIME"
      keyword "ZONE"
      return .form [.operand left, .words (" AT TIME ZONE '" ++ (← rawString) ++ "'")]
    else if word = "OPERATOR" then rightOperand lower left (← customOperator) comparisonRank
    else if word = "NOT" then g.predicate lower left true (← oneOf (predicateWords.map Prod.fst))
    else g.predicate lower left false word

def continuation (g : Grammar) (lower : Lower) (left : Expr) : Parser Expr := do
  match ← next with
  | .symbol symbol => g.continueSymbol lower left symbol
  | .word name => g.continueWord lower left name.keyword
  | _ => failure

def extend (g : Grammar) (lower : Lower) (rank : List Token → Nat) (above : Nat) :
    Nat → Expr → Parser Expr
  | 0, _ => failure
  | n + 1, left => fun tokens =>
    if above < rank tokens then
      (do g.extend lower rank above n (← g.continuation lower left)) tokens
    else some (left, tokens)

def durationRank (tokens : List Token) : Nat :=
  match tokens with
  | .word name :: _ => if name.keyword ∈ ["AND", "OR", "XOR"] then 0 else rankOf tokens
  | _ => rankOf tokens

def lower (g : Grammar) : Nat → Lower
  | 0 => ⟨fun _ => failure, failure⟩
  | n + 1 =>
    { above := fun above => do
        g.extend (g.lower n) rankOf above (n + 1) (← g.operand (g.lower n))
      duration := do
        g.extend (g.lower n) durationRank 0 (n + 1) (← g.operand (g.lower n)) }

def wholeExpr (g : Grammar) : Parser Expr := fun tokens =>
  (g.lower (tokens.length + 1)).above 0 tokens

def call (g : Grammar) (name : Name) : Parser Expr := fun tokens =>
  g.function (g.lower (tokens.length + 1)) name tokens

def windowDefinition (g : Grammar) : Parser (List Part) := fun tokens =>
  g.window (g.lower (tokens.length + 1)) tokens

end TripleTable.Sql.Grammar
