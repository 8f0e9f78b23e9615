import TripleTable.Sql.Grammar.Definition
set_option autoImplicit false

/-!
Statements that create tables, views and other things of a database.
-/
namespace TripleTable.Sql.Grammar

open Sql.Parser

-- A name that need not be well formed: a token that belongs to no name ends it and
-- is passed over.
def looseNameUpTo : Nat → Parser Unit
  | 0 => return
  | n + 1 => do
    match ← attempt ident with
    | some _ => if ← symbol? "." then looseNameUpTo n
    | none => skipToken

def looseName : Parser Unit := fun tokens => looseNameUpTo (tokens.length + 1) tokens

def word : Parser Unit := do
  unless (← next).isWord do failure

def model : Parser Unit := do
  if (← oneOf? ["LIKE", "ILIKE"]).isSome then looseName
  if ← keyword? "CLONE" then looseName

def storedOrder : Parser Unit := do
  if ← symbol? "(" then
    unless ← symbol? ")" do
      discard (commaSeparated ident)
      symbol ")"
  else discard ident

def engineOptions (g : Grammar) : Parser Unit := do
  g.options "WITH"
  g.options "TBLPROPERTIES"
  discard (after? "ENGINE" do
    symbol "="
    word)
  discard (after? "COMMENT" do
    discard (symbol? "=")
    rawString)
  discard (after? "AUTO_INCREMENT" do
    discard (symbol? "=")
    count)
  discard (afterAll? ["ORDER", "BY"] storedOrder)
  discard (afterAll? ["PARTITION", "BY"] g.expr)
  discard (afterAll? ["CLUSTER", "BY"] (commaSeparated ident))
  g.options "OPTIONS"

def tableTraits : Parser Unit := do
  discard (afterAll? ["DEFAULT", "CHARSET"] do
    symbol "="
    word)
  discard (after? "COLLATE" do
    symbol "="
    word)
  discard (phrase? [["ON", "COMMIT", "DELETE", "ROWS"], ["ON", "COMMIT", "PRESERVE", "ROWS"],
    ["ON", "COMMIT", "DROP"]])
  skipKeyword "STRICT"

def createTable (g : Grammar) : Parser Unit := do
  unlessThere
  discard dotted
  discard (afterAll? ["ON", "CLUSTER"] ident)
  model
  elements g.tableElement
  discard (keywords? ["WITHOUT", "ROWID"])
  g.distribution
  g.storage
  g.engineOptions
  discard (after? "AS" g.query)
  tableTraits

def createExternalTable (g : Grammar) : Parser Unit := do
  keyword "TABLE"
  unlessThere
  discard dotted
  elements g.tableElement
  g.distribution
  g.storage
  g.options "TBLPROPERTIES"

def viewColumns (g : Grammar) : Parser Unit := do
  if ← symbol? "(" then
    unless ← symbol? ")" do
      discard (commaSeparated do
        discard ident
        g.options "OPTIONS")
      symbol ")"

def createView (g : Grammar) : Parser Unit := do
  unlessThere
  discard dotted
  g.viewColumns
  g.options "WITH"
  discard (afterAll? ["CLUSTER", "BY"] columnNames)
  g.options "OPTIONS"
  keyword "AS"
  discard g.query
  discard (keywords? ["WITH", "NO", "SCHEMA", "BINDING"])

def macroParameter (g : Grammar) : Parser Unit := do
  discard ident
  if ← symbol? ":=" then discard g.expr
  else if ← symbol? "=>" then discard g.expr

def createMacro (g : Grammar) : Parser Unit := do
  discard dotted
  symbol "("
  unless ← seesSymbol ")" do discard (commaSeparated g.macroParameter)
  symbol ")"
  keyword "AS"
  if ← keyword? "TABLE" then discard g.query else discard g.expr

def createExtension : Parser Unit := do
  unlessThere
  discard ident
  if ← keyword? "WITH" then
    discard (after? "SCHEMA" ident)
    discard (after? "VERSION" ident)
    skipKeyword "CASCADE"

def createIndex (g : Grammar) : Parser Unit := do
  skipKeyword "CONCURRENTLY"
  let mayExist ← keywords? ["IF", "NOT", "EXISTS"]
  let nameless ← if mayExist then pure false else keyword? "ON"
  unless nameless do
    discard dotted
    keyword "ON"
  discard dotted
  discard (after? "USING" ident)
  discard (parenthesized g.orderByItems)
  discard (after? "INCLUDE" columnList)
  discard (after? "NULLS" do
    skipKeyword "NOT"
    keyword "DISTINCT")
  discard (after? "WHERE" g.expr)

def createVirtualTable : Parser Unit := do
  keyword "TABLE"
  unlessThere
  discard dotted
  keyword "USING"
  discard ident
  discard columnNames

def createSchema : Parser Unit := do
  unlessThere
  unless ← seesKeyword ["AUTHORIZATION"] do discard dotted
  discard (after? "AUTHORIZATION" ident)

def createDatabase : Parser Unit := do
  unlessThere
  discard dotted
  repeatWhile do
    match ← oneOf? ["LOCATION", "MANAGEDLOCATION"] with
    | some _ =>
      discard literalText
      return true
    | none => return false

def createRole : Parser Unit := do
  unlessThere
  discard (commaSeparated dotted)
  skipKeyword "WITH"

def createSequence : Parser Unit := do
  unlessThere
  discard dotted
  discard (after? "AS" dataType)
  sequenceOptions
  if ← keywords? ["OWNED", "BY"] then
    unless ← keyword? "NONE" do discard dotted

def createType : Parser Unit := do
  discard dotted
  keyword "AS"
  elements do
    discard ident
    discard dataType
    discard (after? "COLLATE" dotted)

def createProcedure (block : Parser Unit) : Parser Unit := do
  discard dotted
  elements do
    if ← seesWord then
      discard ident
      discard dataType
  keyword "AS"
  keyword "BEGIN"
  block
  keyword "END"

def replaceable (g : Grammar) : List (List String × Parser Unit) := [
  (["TABLE"], g.createTable),
  (["MATERIALIZED", "VIEW"], g.createView),
  (["VIEW"], g.createView),
  (["EXTERNAL"], g.createExternalTable),
  (["MACRO"], g.createMacro)]

def creatable (g : Grammar) (block : Parser Unit) : List (List String × Parser Unit) := [
  (["EXTENSION"], createExtension),
  (["INDEX"], g.createIndex),
  (["UNIQUE", "INDEX"], g.createIndex),
  (["VIRTUAL"], createVirtualTable),
  (["SCHEMA"], createSchema),
  (["DATABASE"], createDatabase),
  (["ROLE"], createRole),
  (["SEQUENCE"], createSequence),
  (["TYPE"], createType),
  (["PROCEDURE"], createProcedure block)]

def choose : List (List String × Parser Unit) → Parser Unit
  | [] => failure
  | (words, read) :: rest => do
    if ← keywords? words then read else choose rest

def create (g : Grammar) (block : Parser Unit) : Parser Unit := do
  let replacing ← keywords? ["OR", "REPLACE"]
  discard (keywords? ["OR", "ALTER"])
  skipKeyword "LOCAL"
  skipKeyword "GLOBAL"
  skipKeyword "TRANSIENT"
  skipOneOf ["TEMP", "TEMPORARY"]
  choose (if replacing then g.replaceable else g.replaceable ++ g.creatable block)

end TripleTable.Sql.Grammar
