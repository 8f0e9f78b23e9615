import TripleTable.Sql.Grammar.Select
set_option autoImplicit false

/-!
Statements that insert, update, delete and merge rows. The first two may stand in the place of a
query, so their words are kept; of the others nothing is.
-/
namespace TripleTable.Sql.Grammar

open Sql.Parser

-- The words up to an equals sign name the target of an assignment; all else there
-- is passed over.
def assignmentTarget (tokens : List Token) : Text :=
  Text.join "." ((tokens.takeWhile (· != .symbol "=")).filterMap fun token =>
    match token with
    | .word name => some name.text
    | _ => none)

def assignment (g : Grammar) : Parser (List Part) := do
  let target ← fun tokens => some (assignmentTarget tokens, tokens.dropWhile (· != .symbol "="))
  symbol "="
  return [.words (target ++ " = "), .operand (← g.expr)]

def assignments (g : Grammar) : Parser (List Part) :=
  return separated ", " (← commaSeparated g.assignment)

def joined (g : Grammar) : Parser Source := fun tokens => g.source (tokens.length + 1) tokens

def lone (g : Grammar) : Parser Relation := fun tokens =>
  g.relation (g.source tokens.length) tokens

def returning (g : Grammar) : Parser (List Part) := do
  match ← after? "RETURNING" (commaSeparated g.item) with
  | some items =>
    return .words " RETURNING " :: separated ", " (items.map fun item =>
      match item with
      | .parts parts => parts
      | .qualifiedWildcard name options => .words (Name.text name ++ ".*") :: options)
  | none => return []

def deleteRows (g : Grammar) : Parser Unit := do
  unless ← keyword? "FROM" do
    discard (commaSeparated dotted)
    keyword "FROM"
  discard (commaSeparated g.joined)
  discard (after? "USING" (commaSeparated g.joined))
  discard (after? "WHERE" g.expr)
  discard g.returning
  discard (g.orderBy [])
  discard g.limit?

def conflictTarget : Parser Text := do
  if ← keywords? ["ON", "CONSTRAINT"] then return " ON CONSTRAINT " ++ (← dotted).text
  else
    match ← columnNames with
    | [] => return []
    | columns => return '(' :: Text.join ", " (columns.map Ident.text) ++ [')']

def conflict (g : Grammar) : Parser (List Part) := do
  if ← keyword? "ON" then
    match ← oneOf ["CONFLICT", "DUPLICATE"] with
    | "CONFLICT" =>
      let target ← conflictTarget
      keyword "DO"
      let lead : Text := " ON CONFLICT" ++ target
      if ← keyword? "NOTHING" then return [.words (lead ++ " DO NOTHING")]
      keyword "UPDATE"
      keyword "SET"
      let changes ← g.assignments
      return .words (lead ++ " DO UPDATE SET ") :: changes ++ (← g.condition "WHERE" " WHERE ")
    | _ =>
      keyword "KEY"
      keyword "UPDATE"
      return .words " ON DUPLICATE KEY UPDATE " :: (← g.assignments)
  else return []

def leadingWords (choices : List String) : Parser Text := do
  match ← oneOf? choices with
  | some word => return ' ' :: word.toList
  | none => return []

def fileFormat : Parser Text :=
  return (← oneOf ["AVRO", "JSONFILE", "ORC", "PARQUET", "RCFILE", "SEQUENCEFILE",
    "TEXTFILE"]).toList

def directory (g : Grammar) (lead : Text) : Parser (List Part) := do
  let path ← literalText
  let format : Text ←
    if ← keywords? ["STORED", "AS"] then pure (" STORED AS " ++ (← fileFormat)) else pure []
  return [.words (lead ++ " DIRECTORY '" ++ path ++ "'" ++ format ++ " "), .query (← g.query)]

def filledColumns : Parser Text := do
  match ← columnNames with
  | [] => return []
  | columns => return '(' :: Text.join ", " (columns.map Ident.text) ++ ") "

def insertedRows (g : Grammar) : Parser (List Part) := do
  if ← keywords? ["DEFAULT", "VALUES"] then return [.words "DEFAULT VALUES"]
  let columns ← filledColumns
  let partition : List Part ←
    match ← after? "PARTITION" (parenthesized (commaSeparated g.expr)) with
    | some exprs => pure (.words "PARTITION (" :: listed exprs ++ [.words ") "])
    | none => pure []
  let more ← filledColumns
  return .words columns :: partition ++ [.words more, .query (← g.query)]

-- An insertion, behind its verb. Rows go into a table, or into files, where the
-- verb is always the same.
def insertRows (g : Grammar) (verb : Text) : Parser (List Part) := do
  let priority ← leadingWords ["LOW_PRIORITY", "DELAYED", "HIGH_PRIORITY"]
  let ignore ← optionalWord "IGNORE"
  let action ← oneOf? ["INTO", "OVERWRITE"]
  let near ← optionalWord "LOCAL"
  if ← keyword? "DIRECTORY" then
    let overwrite : Text := if action = some "OVERWRITE" then " OVERWRITE" else []
    g.directory ("INSERT" ++ overwrite ++ near)
  else
    let place : Text := match action with
      | some word => ' ' :: word.toList
      | none => []
    let lead := verb ++ priority ++ ignore ++ place ++ (← optionalWord "TABLE") ++ " "
    let table ← dotted
    let rows ← g.insertedRows
    let conflict ← g.conflict
    let returned ← g.returning
    return .words lead :: .source ⟨⟨.table table [], none, []⟩, []⟩ :: .words " " :: rows ++
      conflict ++ returned

def updateRows (g : Grammar) : Parser (List Part) := do
  let table ← g.joined
  keyword "SET"
  let changes ← g.assignments
  let origin : List Part ←
    match ← after? "FROM" g.joined with
    | some source => pure [.words " FROM ", .source source]
    | none => pure []
  let condition ← g.condition "WHERE" " WHERE "
  let returned ← g.returning
  return .words "UPDATE " :: .source table :: .words " SET " :: changes ++ origin ++ condition ++
    returned

def mergeClause (g : Grammar) : Parser Bool := do
  if ← atEnd then return false
  else if ← seesSymbol ";" then return false
  else
    keyword "WHEN"
    let unmatched ← keyword? "NOT"
    keyword "MATCHED"
    discard (after? "AND" g.expr)
    keyword "THEN"
    if unmatched then
      keyword "INSERT"
      discard columnNames
      keyword "VALUES"
      discard g.values
    else if ← keyword? "UPDATE" then
      keyword "SET"
      discard g.assignments
    else keyword "DELETE"
    return true

def mergeRows (g : Grammar) : Parser Unit := do
  skipKeyword "INTO"
  discard g.lone
  keyword "USING"
  discard g.lone
  keyword "ON"
  discard g.expr
  repeatWhile g.mergeClause

end TripleTable.Sql.Grammar
