import TripleTable.Sql.Grammar.Definition
set_option autoImplicit false

/-!
Statements for the upkeep of a server: what it analyses, repairs, keeps in memory, writes out or
stops.
-/
namespace TripleTable.Sql.Grammar

open Sql.Parser

def truncate (g : Grammar) : Parser Unit := do
  skipKeyword "TABLE"
  discard dotted
  discard (after? "PARTITION" g.exprList)

def analysisClause (g : Grammar) : Parser Bool := do
  match ← oneOf? ["PARTITION", "FOR", "CACHE", "NOSCAN", "COMPUTE"] with
  | some "PARTITION" => discard g.exprList
  | some "FOR" =>
    keyword "COLUMNS"
    discard (attempt (commaSeparated ident))
  | some "CACHE" => keyword "METADATA"
  | some "COMPUTE" => keyword "STATISTICS"
  | some _ => pure ()
  | none => return false
  return true

def analysis (g : Grammar) : Parser Unit := do
  keyword "TABLE"
  discard dotted
  repeatWhile g.analysisClause

def repair : Parser Unit := do
  skipKeyword "REPAIR"
  keyword "TABLE"
  discard dotted
  discard (phrase? [["ADD", "PARTITIONS"], ["DROP", "PARTITIONS"], ["SYNC", "PARTITIONS"],
    ["PARTITIONS"]])

def caching (g : Grammar) : Parser Unit := do
  unless ← seesKeyword ["TABLE"] do discard dotted
  keyword "TABLE"
  discard dotted
  g.options "OPTIONS"
  unless ← atEnd do
    unless ← seesWord do failure
    skipKeyword "AS"
    discard g.query

def uncaching : Parser Unit := do
  keyword "TABLE"
  ifThere
  discard dotted
  unless ← atEnd do failure

def flushedTablesUpTo : Nat → Parser Unit
  | 0 => return
  | n + 1 => do
    if ← seesWord then
      if ← keyword? "WITH" then discard (keywords? ["READ", "LOCK"])
      else if ← keyword? "FOR" then skipKeyword "EXPORT"
      else if ← sees isOrdinary then discard (commaSeparated dotted)
      else skipToken
      flushedTablesUpTo n
    else skipToken
where
  isOrdinary : Token → Bool
    | .word name => !keywords.contains name.keyword
    | _ => false

def flushedTables : Parser Unit := fun tokens => flushedTablesUpTo tokens.length tokens

def flushing : Parser Unit := do
  skipOneOf ["NO_WRITE_TO_BINLOG", "LOCAL"]
  match ← phrase? [["BINARY", "LOGS"], ["ENGINE", "LOGS"], ["ERROR", "LOGS"], ["GENERAL", "LOGS"],
    ["SLOW", "LOGS"], ["RELAY", "LOGS"], ["HOSTS"], ["PRIVILEGES"], ["OPTIMIZER_COSTS"],
    ["STATUS"], ["USER_RESOURCES"], ["LOGS"], ["TABLES"]] with
  | some ["TABLES"] => flushedTables
  | some ["RELAY", "LOGS"] => discard (afterAll? ["FOR", "CHANNEL"] dotted)
  | some _ => return
  | none => failure

def killing : Parser Unit := do
  skipOneOf ["CONNECTION", "QUERY", "MUTATION"]
  discard count

def attachment (g : Grammar) : Parser Unit := do
  skipKeyword "DATABASE"
  discard g.expr
  keyword "AS"
  discard ident

def pragmaValue : Parser Unit := do
  match ← attempt quotedText with
  | some _ => return
  | none => numberValue
where
  quotedText : Parser Unit
    | .string _ :: rest => some ((), rest)
    | .word name :: rest => if name.quote = some '"' then some ((), rest) else none
    | _ => none

def pragma : Parser Unit := do
  discard dotted
  if ← symbol? "=" then pragmaValue
  else if ← seesSymbol "(" then parenthesized pragmaValue

end TripleTable.Sql.Grammar
