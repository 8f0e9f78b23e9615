import TripleTable.Sql.Grammar.Expression
set_option autoImplicit false

/-!
Relations of a FROM clause and the joins between them.
-/
namespace TripleTable.Sql.Grammar

open Sql.Parser

-- Another name for what precedes it: any name behind AS, otherwise none of the reserved words.
def aliasName (reserved : List String) : Parser (Option Ident) := do
  if ← keyword? "AS" then return some (← ident)
  else if ← seesKeyword reserved then return none
  else attempt ident

def tableAlias : Parser (Option Alias) := do
  match ← aliasName reservedAfterTable with
  | some name =>
    if ← seesSymbol "(" then return some ⟨name, ← columnList⟩ else return some ⟨name, []⟩
  | none => return none

def derived (g : Grammar) (lateral : Bool) : Parser Relation := do
  let rows ← g.query
  symbol ")"
  return ⟨.derived lateral rows, ← tableAlias, []⟩

def isNested : Factor → Bool
  | .nested _ => true
  | _ => false

-- A relation in parentheses, from behind the opening one on. Parentheses around a lone table are
-- not kept, and a name behind them becomes its alias.
def enclosed (inner : Parser Source) : Parser Relation := do
  let source ← inner
  symbol ")"
  let outer ← tableAlias
  if !source.joins.isEmpty || isNested source.relation.factor then
    return ⟨.nested source, outer, []⟩
  else
    match outer, source.relation.aliased with
    | none, _ => return source.relation
    | some _, some _ => failure
    | some a, none => return { source.relation with aliased := some a }

def rowNumbers : Parser Text := do
  if ← keyword? "WITH" then
    if ← keyword? "OFFSET" then
      match ← aliasName reservedAfterColumn with
      | some name => return " WITH OFFSET AS " ++ name.text
      | none => return " WITH OFFSET"
  return []

def unnest (g : Grammar) : Parser Relation := do
  let arrays ← parenthesized (commaSeparated g.expr)
  let a ← tableAlias
  let position ← rowNumbers
  return ⟨.other (.words "UNNEST(" :: listed arrays ++ [.words ")"]), a, [.words position]⟩

def tableFunction (g : Grammar) : Parser Relation := do
  let e ← parenthesized g.expr
  return ⟨.other [.words "TABLE(", .operand e, .words ")"], ← tableAlias, []⟩

def hints (g : Grammar) : Parser (List Part) := do
  match ← attempt (do keyword "WITH"; symbol "(") with
  | some () =>
    let exprs ← commaSeparated g.expr
    symbol ")"
    return .words " WITH (" :: listed exprs ++ [.words ")"]
  | none => return []

def tableArguments (g : Grammar) : Parser (List Part) := do
  symbol "("
  if ← symbol? ")" then return [.words "()"]
  let values ← commaSeparated g.argument
  symbol ")"
  return .words "(" :: separated ", " values ++ [.words ")"]

def table (g : Grammar) : Parser Relation := do
  let name ← dotted
  let partitions : List Part ←
    match ← after? "PARTITION" columnList with
    | some names => pure [.words ("PARTITION (" ++ Text.join ", " (names.map Ident.text) ++ ")")]
    | none => pure []
  let arguments ← if ← seesSymbol "(" then g.tableArguments else pure []
  let a ← tableAlias
  return ⟨.table name (partitions ++ arguments), a, ← g.hints⟩

def pivot (g : Grammar) (turned : Relation) : Parser Relation := do
  symbol "("
  match ← next with
  | .word name =>
    let aggregate ← g.call [⟨name.value, none⟩]
    keyword "FOR"
    let column ← dotted
    keyword "IN"
    let values ← parenthesized (commaSeparated value)
    symbol ")"
    let parts : List Part := [.source ⟨turned, []⟩, .words " PIVOT(", .operand aggregate,
      .words (" FOR " ++ Name.text column ++ " IN (" ++ Text.join ", " values ++ "))")]
    return ⟨.other parts, ← tableAlias, []⟩
  | _ => failure

def unpivot (turned : Relation) : Parser Relation := do
  symbol "("
  let what ← ident
  keyword "FOR"
  let name ← ident
  keyword "IN"
  let columns ← columnList
  symbol ")"
  let turn : Text := " UNPIVOT(" ++ what.text ++ " FOR " ++ name.text ++ " IN (" ++
    Text.join ", " (columns.map Ident.text) ++ "))"
  return ⟨.other [.source ⟨turned, []⟩, .words turn], ← tableAlias, []⟩

def turned (g : Grammar) : Nat → Relation → Parser Relation
  | 0, _ => failure
  | n + 1, r => do
    if ← keyword? "PIVOT" then g.turned n (← g.pivot r)
    else if ← keyword? "UNPIVOT" then g.turned n (← unpivot r)
    else return r

def withTurns (g : Grammar) (p : Parser Relation) : Parser Relation := fun tokens =>
  (do g.turned (tokens.length + 1) (← p)) tokens

def replacementValue : Parser (Option Text) := do
  let replacement : Option Text ←
    match ← oneOf? ["NULL", "ERROR", "DEFAULT"] with
    | some "DEFAULT" => pure (some ("DEFAULT " ++ (← value)))
    | some word => pure (some word.toList)
    | none => pure none
  if replacement.isSome then keyword "ON"
  return replacement

def replacementValues : Nat → Option Text → Option Text → Parser Text
  | 0, _, _ => failure
  | n + 1, missing, faulty => do
    match ← replacementValue with
    | some r =>
      if ← keyword? "EMPTY" then replacementValues n (some r) faulty
      else
        keyword "ERROR"
        replacementValues n missing (some r)
    | none =>
      let onEmpty : Text := match missing with
        | some r => " " ++ r ++ " ON EMPTY"
        | none => []
      let onError : Text := match faulty with
        | some r => " " ++ r ++ " ON ERROR"
        | none => []
      return onEmpty ++ onError

def documentColumn : Parser Text := do
  let name ← ident
  let type ← dataType
  let presence ← optionalWord "EXISTS"
  keyword "PATH"
  let path ← value
  let replacements ← fun tokens => replacementValues (tokens.length + 1) none none tokens
  return name.text ++ " " ++ type ++ presence ++ " PATH " ++ path ++ replacements

def documentTable (g : Grammar) : Parser Relation := do
  symbol "("
  let document ← g.expr
  symbol ","
  let path ← value
  keyword "COLUMNS"
  let columns ← parenthesized (commaSeparated documentColumn)
  symbol ")"
  let parts : List Part := [.words "JSON_TABLE(", .operand document,
    .words (", " ++ path ++ " COLUMNS(" ++ Text.join ", " columns ++ "))")]
  return ⟨.other parts, ← tableAlias, []⟩

def lateralFunction (g : Grammar) : Parser Relation := do
  let name ← dotted
  let arguments ← g.tableArguments
  return ⟨.other (.words ("LATERAL " ++ name.text) :: arguments), ← tableAlias, []⟩

def relation (g : Grammar) (inner : Parser Source) : Parser Relation := do
  if ← keyword? "LATERAL" then
    if ← symbol? "(" then g.derived true else g.lateralFunction
  else if ← keyword? "TABLE" then g.tableFunction
  else if ← symbol? "(" then
    match ← attempt (g.derived false) with
    | some r => g.withTurns (return r)
    | none => enclosed inner
  else if ← keyword? "UNNEST" then g.unnest
  else if ← keyword? "JSON_TABLE" then g.documentTable
  else g.withTurns g.table

def joinKind : Parser (Option Text) := do
  if ← keyword? "INNER" then
    keyword "JOIN"
    return some "JOIN "
  else if ← keyword? "JOIN" then return some "JOIN "
  else if ← keyword? "FULL" then
    let _ ← keyword? "OUTER"
    keyword "JOIN"
    return some "FULL JOIN "
  else
    match ← oneOf? ["LEFT", "RIGHT"] with
    | some side =>
      match ← oneOf ["OUTER", "SEMI", "ANTI", "JOIN"] with
      | "JOIN" => return some (side.toList ++ " JOIN ")
      | "OUTER" =>
        keyword "JOIN"
        return some (side.toList ++ " JOIN ")
      | part =>
        keyword "JOIN"
        return some (side.toList ++ " " ++ part ++ " JOIN ")
    | none => return none

def joinConstraint (g : Grammar) (natural : Bool) : Parser (List Part) := do
  if natural then return []
  else if ← keyword? "ON" then return [.words " ON ", .operand (← g.expr)]
  else if ← keyword? "USING" then
    return [.words (" USING(" ++ Text.join ", " ((← columnList).map Ident.text) ++ ")")]
  else return []

def join (g : Grammar) (right : Parser Relation) : Parser (Option Join) := do
  if ← keyword? "CROSS" then
    match ← oneOf ["JOIN", "APPLY"] with
    | "JOIN" => return some ⟨" CROSS JOIN ", ← right, []⟩
    | _ => return some ⟨" CROSS APPLY ", ← right, []⟩
  else if ← keyword? "OUTER" then
    keyword "APPLY"
    return some ⟨" OUTER APPLY ", ← right, []⟩
  else
    let natural ← keyword? "NATURAL"
    match ← joinKind with
    | some kind =>
      let lead : Text := if natural then " NATURAL " else " "
      let relation ← right
      return some ⟨lead ++ kind, relation, ← g.joinConstraint natural⟩
    | none => if natural then failure else return none

def source (g : Grammar) : Nat → Parser Source
  | 0 => failure
  | n + 1 => do
    let first ← g.relation (g.source n)
    return ⟨first, ← many (g.join (g.relation (g.source n)))⟩

end TripleTable.Sql.Grammar
