import TripleTable.Sql.Grammar.Creation
set_option autoImplicit false

/-!
Statements that change tables, views and indexes, and those that drop things.
-/
namespace TripleTable.Sql.Grammar

open Sql.Parser

def partitions (g : Grammar) : Parser Unit := do
  discard g.exprList
  repeatWhile do return (← after? "PARTITION" g.exprList).isSome

def addition (g : Grammar) : Parser Unit := do
  unless ← g.tableConstraint do
    unlessThere
    if ← keyword? "PARTITION" then g.partitions
    else
      skipKeyword "COLUMN"
      unlessThere
      g.columnDefinition

def newName : Parser Unit := do
  if ← keyword? "TO" then discard dotted
  else
    skipKeyword "COLUMN"
    discard ident
    keyword "TO"
    discard ident

def disabling : Parser Unit := do
  unless ← keywords? ["ROW", "LEVEL", "SECURITY"] do
    discard (oneOf ["RULE", "TRIGGER"])
    discard ident

def enabling : Parser Unit := do
  unless ← keywords? ["ROW", "LEVEL", "SECURITY"] do
    phrase [["ALWAYS", "RULE"], ["ALWAYS", "TRIGGER"], ["REPLICA", "RULE"],
      ["REPLICA", "TRIGGER"], ["RULE"], ["TRIGGER"]]
    discard ident

def removal (g : Grammar) : Parser Unit := do
  match ← phrase? [["IF", "EXISTS", "PARTITION"], ["PARTITION"], ["CONSTRAINT"],
    ["PRIMARY", "KEY"]] with
  | some ["CONSTRAINT"] => named
  | some ["PRIMARY", "KEY"] => return
  | some _ => discard g.exprList
  | none =>
    skipKeyword "COLUMN"
    named
where
  named : Parser Unit := do
    ifThere
    discard ident
    skipKeyword "CASCADE"

def columnChange (g : Grammar) : Parser Unit := do
  skipKeyword "COLUMN"
  discard ident
  match ← phrase? [["SET", "NOT", "NULL"], ["DROP", "NOT", "NULL"], ["SET", "DEFAULT"],
    ["DROP", "DEFAULT"], ["SET", "DATA", "TYPE"], ["ADD", "GENERATED"]] with
  | some ["SET", "DEFAULT"] => discard g.expr
  | some ["SET", "DATA", "TYPE"] => discard dataType
  | some ["ADD", "GENERATED"] =>
    discard (phrase? [["ALWAYS"], ["BY", "DEFAULT"]])
    readKeywords ["AS", "IDENTITY"]
    numbering
  | some _ => return
  | none => failure

def columnReplacement (g : Grammar) : Parser Unit := do
  skipKeyword "COLUMN"
  discard ident
  discard ident
  discard dataType
  repeatWhile g.columnOption

def tableChange (g : Grammar) : Parser Unit :=
  choose [
    (["ADD"], g.addition),
    (["RENAME"], newName),
    (["DISABLE"], disabling),
    (["ENABLE"], enabling),
    (["DROP"], g.removal),
    (["PARTITION"], do
      discard g.exprList
      readKeywords ["RENAME", "TO", "PARTITION"]
      discard g.exprList),
    (["CHANGE"], g.columnReplacement),
    (["ALTER"], g.columnChange),
    (["SWAP"], do
      keyword "WITH"
      discard dotted)]

def alterTable (g : Grammar) : Parser Unit := do
  ifThere
  skipKeyword "ONLY"
  discard dotted
  discard (commaSeparated g.tableChange)

def alterView (g : Grammar) : Parser Unit := do
  discard dotted
  discard columnNames
  g.options "WITH"
  keyword "AS"
  discard g.query

def alter (g : Grammar) : Parser Unit :=
  choose [
    (["TABLE"], g.alterTable),
    (["VIEW"], g.alterView),
    (["INDEX"], do
      discard dotted
      readKeywords ["RENAME", "TO"]
      discard dotted)]

-- A parameter of a function that is dropped. A name unknown as a type is the parameter's own,
-- and its type stands behind it.
def droppedParameter (g : Grammar) : Parser Unit := do
  skipOneOf ["IN", "OUT", "INOUT"]
  let type ← completeType
  if type.kind = .custom then discard dataType
  if ← keyword? "DEFAULT" then discard g.expr
  else if ← symbol? "=" then discard g.expr

def droppedFunction (g : Grammar) : Parser Unit := do
  discard dotted
  if ← symbol? "(" then
    unless ← symbol? ")" do
      discard (commaSeparated g.droppedParameter)
      symbol ")"

def dropFunction (g : Grammar) : Parser Unit := do
  ifThere
  discard (commaSeparated g.droppedFunction)
  skipOneOf ["CASCADE", "RESTRICT"]

def drop (g : Grammar) : Parser Unit := do
  skipKeyword "TEMPORARY"
  match ← oneOf ["TABLE", "VIEW", "INDEX", "ROLE", "SCHEMA", "SEQUENCE", "STAGE", "FUNCTION"] with
  | "FUNCTION" => g.dropFunction
  | kind =>
    ifThere
    discard (commaSeparated dotted)
    let cascade ← keyword? "CASCADE"
    let restrict ← keyword? "RESTRICT"
    let purge ← keyword? "PURGE"
    if cascade ∧ restrict then failure
    if kind = "ROLE" ∧ (cascade ∨ restrict ∨ purge) then failure

end TripleTable.Sql.Grammar
