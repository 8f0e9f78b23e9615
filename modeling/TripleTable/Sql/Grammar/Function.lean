import TripleTable.Sql.Grammar.Basic
set_option autoImplicit false

/-!
Functions: ordinary ones with their windows, and those whose arguments are written in a way of their
own.
-/
namespace TripleTable.Sql.Grammar

open Sql.Parser

def seesString : Parser Bool :=
  sees fun token =>
    match token with
    | .string _ => true
    | _ => false

def frameBound (g : Grammar) (lower : Lower) : Parser (List Part) := do
  if ← keywords? ["CURRENT", "ROW"] then return [.words "CURRENT ROW"]
  let distance : List Part ←
    if ← keyword? "UNBOUNDED" then pure [.words "UNBOUNDED"]
    else if ← seesString then pure [.operand (← interval lower)]
    else pure [.operand (← g.expr)]
  if ← keyword? "PRECEDING" then return distance ++ [.words " PRECEDING"]
  keyword "FOLLOWING"
  return distance ++ [.words " FOLLOWING"]

def frame (g : Grammar) (lower : Lower) : Parser (List Part) := do
  let units ← oneOf ["ROWS", "RANGE", "GROUPS"]
  if ← keyword? "BETWEEN" then
    let first ← g.frameBound lower
    keyword "AND"
    let last ← g.frameBound lower
    return .words (units.toList ++ " BETWEEN ") :: first ++ .words " AND " :: last
  else return .words (units.toList ++ " ") :: (← g.frameBound lower)

def window (g : Grammar) (lower : Lower) : Parser (List Part) := do
  let partition : List (List Part) ←
    if ← keywords? ["PARTITION", "BY"] then
      pure [.words "PARTITION BY " :: listed (← commaSeparated g.expr)]
    else pure []
  let order : List (List Part) ←
    if ← keywords? ["ORDER", "BY"] then pure [.words "ORDER BY " :: (← g.orderByItems)] else pure []
  let rows : List (List Part) ←
    if ← seesSymbol ")" then pure [] else pure [← g.frame lower]
  symbol ")"
  return separated " " (partition ++ order ++ rows)

def functionTail (g : Grammar) (lower : Lower) : Parser (List Part) := do
  let missing : List Part ←
    if ← keyword? "RESPECT" then do keyword "NULLS"; pure [Part.words " RESPECT NULLS"]
    else if ← keyword? "IGNORE" then do keyword "NULLS"; pure [Part.words " IGNORE NULLS"]
    else pure []
  if ← keyword? "OVER" then
    if ← symbol? "(" then
      return missing ++ .words " OVER (" :: (← g.window lower) ++ [.words ")"]
    else return missing ++ [.words (" OVER " ++ (← ident).text)]
  else return missing

def function (g : Grammar) (lower : Lower) (name : Name) : Parser Expr := do
  symbol "("
  let distinct : Text := if (← g.distinct).isSome then "DISTINCT " else []
  let values ← g.arguments
  let tail ← g.functionTail lower
  return .form (.words (name.text ++ "(" ++ distinct) :: values ++ .words ")" :: tail)

def clockFunction (g : Grammar) (name : Ident) : Parser Expr := do
  if ← symbol? "(" then
    return .form (.words (name.text ++ "(") :: (← g.arguments) ++ [.words ")"])
  else return .form [.words name.text]

def castTo (lead : Text) (e : Expr) (type : Text) : Expr :=
  .form [.words (lead ++ "("), .operand e, .words (" AS " ++ type ++ ")")]

def castFormat : Parser Text := do
  if ← keyword? "FORMAT" then
    let format ← value
    if ← keywords? ["AT", "TIME", "ZONE"] then
      return " FORMAT " ++ format ++ " AT TIME ZONE " ++ (← value)
    else return " FORMAT " ++ format
  else return []

def cast (g : Grammar) (lead : String) : Parser Expr := parenthesized do
  let e ← g.expr
  keyword "AS"
  let type ← dataType
  return castTo lead e (type ++ (← castFormat))

def convert (g : Grammar) : Parser Expr := parenthesized do
  let e ← g.expr
  if ← keyword? "USING" then
    return .form [.words "CONVERT(", .operand e, .words (" USING " ++ (← dotted).text ++ ")")]
  else
    symbol ","
    let type ← dataType
    let characters : Text ←
      if ← keywords? ["CHARACTER", "SET"] then pure (" CHARACTER SET " ++ (← dotted).text)
      else pure []
    return .form [.words "CONVERT(", .operand e, .words (", " ++ type ++ characters ++ ")")]

def existence (g : Grammar) (negated : Bool) : Parser Expr :=
  return .existsSubquery negated (← parenthesized g.query)

def extract (g : Grammar) : Parser Expr := parenthesized do
  let field ← dateTimeField
  keyword "FROM"
  return .form [.words ("EXTRACT(" ++ field ++ " FROM "), .operand (← g.expr), .words ")"]

def rounding (g : Grammar) (name : String) : Parser Expr := parenthesized do
  let e ← g.expr
  let field : Text ← if ← keyword? "TO" then pure (" TO " ++ (← dateTimeField)) else pure []
  return .form [.words (name ++ "("), .operand e, .words (field ++ ")")]

def substring (g : Grammar) : Parser Expr := parenthesized do
  let e ← g.expr
  let start ← if ← symbol? "," then pure (some (← g.expr)) else after? "FROM" g.expr
  let length ← if ← symbol? "," then pure (some (← g.expr)) else after? "FOR" g.expr
  return .form (.words "SUBSTRING(" :: .operand e ::
    maybeParts " FROM " start ++ maybeParts " FOR " length ++ [.words ")"])

def overlay (g : Grammar) : Parser Expr := parenthesized do
  let e ← g.expr
  keyword "PLACING"
  let what ← g.expr
  keyword "FROM"
  let start ← g.expr
  let length ← after? "FOR" g.expr
  return .form ([.words "OVERLAY(", .operand e, .words " PLACING ", .operand what,
    .words " FROM ", .operand start] ++ maybeParts " FOR " length ++ [.words ")"])

def trimming (g : Grammar) : Parser Expr := parenthesized do
  let side : Text ←
    match ← oneOf? ["BOTH", "LEADING", "TRAILING"] with
    | some side => pure (side.toList ++ " ")
    | none => pure []
  let e ← g.expr
  if ← keyword? "FROM" then
    return .form [.words ("TRIM(" ++ side), .operand e, .words " FROM ", .operand (← g.expr),
      .words ")"]
  else if ← symbol? "," then
    return .form (.words "TRIM(" :: .operand e :: .words ", " ::
      listed (← commaSeparated g.expr) ++ [.words ")"])
  else return .form [.words ("TRIM(" ++ side), .operand e, .words ")"]

def branch (g : Grammar) : Parser (Option (List Part)) := do
  if ← keyword? "WHEN" then
    let condition ← g.expr
    keyword "THEN"
    return some [.words " WHEN ", .operand condition, .words " THEN ", .operand (← g.expr)]
  else return none

def cases (g : Grammar) : Parser Expr := do
  let subject ← if ← seesKeyword ["WHEN"] then pure none else pure (some (← g.expr))
  let branches ← many g.branch
  if branches.isEmpty then failure
  let otherwise ← after? "ELSE" g.expr
  keyword "END"
  return .form (.words "CASE" :: maybeParts " " subject ++ branches.flatten ++
    maybeParts " ELSE " otherwise ++ [.words " END"])

def array (g : Grammar) (name : Text) : Parser Expr := do
  if ← symbol? "]" then return .form [.words (name ++ "[]")]
  let values ← commaSeparated g.expr
  symbol "]"
  return .form (.words (name ++ "[") :: listed values ++ [.words "]"])

def arrayOfRows (g : Grammar) : Parser Expr :=
  return .form [.words "ARRAY(", .query (← parenthesized g.query), .words ")"]

def arrayAggregate (g : Grammar) : Parser Expr := parenthesized do
  let distinct : Text ← if ← keyword? "DISTINCT" then pure ("DISTINCT " : Text) else pure []
  let e ← g.expr
  let order ← g.orderBy " ORDER BY "
  let limit ← g.limit?
  return .form (.words ("ARRAY_AGG(" ++ distinct) :: .operand e :: order ++
    maybeParts " LIMIT " limit ++ [.words ")"])

def beginsFiller : Token → Bool
  | .string _ => true
  | .escaped _ => true
  | .literal (letter :: _) => letter == 'N' || letter == 'X'
  | _ => false

def overflow (g : Grammar) : Parser (List Part) := do
  if ← keywords? ["ON", "OVERFLOW"] then
    if ← keyword? "ERROR" then return [.words " ON OVERFLOW ERROR"]
    keyword "TRUNCATE"
    let filler ← if ← sees beginsFiller then pure (some (← g.expr)) else pure none
    let counted ← oneOf ["WITH", "WITHOUT"]
    keyword "COUNT"
    return .words " ON OVERFLOW TRUNCATE" :: maybeParts " " filler ++
      [.words (" " ++ counted ++ " COUNT")]
  else return []

def listAggregate (g : Grammar) : Parser Expr := do
  symbol "("
  let distinct : Text := if (← g.distinct).isSome then "DISTINCT " else []
  let e ← g.expr
  let separator ← if ← symbol? "," then pure (some (← g.expr)) else pure none
  let overflow ← g.overflow
  symbol ")"
  let order : List Part ←
    if ← keywords? ["WITHIN", "GROUP"] then
      let items ← parenthesized do keyword "ORDER"; keyword "BY"; g.orderByItems
      pure (.words " WITHIN GROUP (ORDER BY " :: items ++ [.words ")"])
    else pure []
  return .form (.words ("LISTAGG(" ++ distinct) :: .operand e ::
    maybeParts ", " separator ++ overflow ++ .words ")" :: order)

def search : Parser Expr := do
  let columns ← columnList
  keyword "AGAINST"
  symbol "("
  let sought ← value
  let how : Text ←
    if ← keywords? ["IN", "NATURAL", "LANGUAGE", "MODE", "WITH", "QUERY", "EXPANSION"] then
      pure (" IN NATURAL LANGUAGE MODE WITH QUERY EXPANSION" : Text)
    else if ← keywords? ["IN", "NATURAL", "LANGUAGE", "MODE"] then
      pure (" IN NATURAL LANGUAGE MODE" : Text)
    else if ← keywords? ["IN", "BOOLEAN", "MODE"] then pure (" IN BOOLEAN MODE" : Text)
    else if ← keywords? ["WITH", "QUERY", "EXPANSION"] then pure (" WITH QUERY EXPANSION" : Text)
    else pure []
  symbol ")"
  return .form [.words ("MATCH (" ++ Text.join ", " (columns.map Ident.text) ++ ") AGAINST (" ++
    sought ++ how ++ ")")]

def structureValue (g : Grammar) (typed : Bool) : Parser (List Part) := do
  let e ← g.expr
  if ← keyword? "AS" then
    if typed then failure
    return [.operand e, .words (" AS " ++ (← ident).text)]
  else return [.operand e]

def structureLiteral (g : Grammar) : Parser Expr := do
  let fields ← structureFields
  let lead : Text := if fields.isEmpty then [] else '<' :: Text.join ", " fields ++ ['>']
  let values ← parenthesized (commaSeparated (g.structureValue !fields.isEmpty))
  return .form (.words ("STRUCT" ++ lead ++ "(") :: separated ", " values ++ [.words ")"])

end TripleTable.Sql.Grammar
