import TripleTable.Sql.Grammar.Query
set_option autoImplicit false

/-!
Statements about a session: its settings, its transactions, what it shows, its prepared statements
and its cursors.
-/
namespace TripleTable.Sql.Grammar

open Sql.Parser

def transactionMode : Parser Bool := do
  match ← phrase? [["ISOLATION", "LEVEL"], ["READ", "ONLY"], ["READ", "WRITE"]] with
  | some ["ISOLATION", "LEVEL"] =>
    phrase [["READ", "UNCOMMITTED"], ["READ", "COMMITTED"], ["REPEATABLE", "READ"],
      ["SERIALIZABLE"]]
    return true
  | some _ => return true
  | none => return false

-- Properties of a transaction, with commas between them or without; one must follow a comma.
def transactionModes : Parser Unit :=
  repeatWhile do
    if ← transactionMode then
      if ← symbol? "," then
        unless ← seesKeyword ["ISOLATION", "READ"] do failure
      return true
    else return false

def beginning : Parser Unit := do
  skipOneOf ["DEFERRED", "IMMEDIATE", "EXCLUSIVE"]
  skipOneOf ["TRANSACTION", "WORK"]
  transactionModes

def start : Parser Unit := do
  keyword "TRANSACTION"
  transactionModes

def endOfTransaction : Parser Unit := do
  skipOneOf ["TRANSACTION", "WORK"]
  if ← keyword? "AND" then
    skipKeyword "NO"
    keyword "CHAIN"

def rollback : Parser Unit := do
  endOfTransaction
  if ← keyword? "TO" then
    skipKeyword "SAVEPOINT"
    discard ident

def characterSet : Parser Unit := do
  unless ← keyword? "DEFAULT" do
    discard literalText
    discard (after? "COLLATE" literalText)

def assignedValue (g : Grammar) (limited : Bool) (name : Text) : Parser Unit := do
  if Text.asciiLower name = "names" then characterSet
  else if ← symbol? "=" then discard (commaSeparated g.expr)
  else if ← keyword? "TO" then discard (commaSeparated g.expr)
  else if Text.asciiLower name = "timezone" then discard g.expr
  else if name = ("CHARACTERISTICS" : Text) then
    readKeywords ["AS", "TRANSACTION"]
    transactionModes
  else if name = ("TRANSACTION" : Text) ∧ !limited then
    if ← keyword? "SNAPSHOT" then discard value else transactionModes
  else failure

def setting (g : Grammar) : Parser Unit := do
  let scope ← oneOf? ["SESSION", "LOCAL", "HIVEVAR"]
  if scope = some "HIVEVAR" then
    symbol ":"
    variableSetting true
  else
    match ← attempt (do keyword "ROLE"; ident) with
    | some _ => return
    | none => variableSetting scope.isSome
where
  variableSetting (limited : Bool) : Parser Unit := do
    let name ← if ← keywords? ["TIME", "ZONE"] then pure ("TIMEZONE" : Text) else
      pure (Name.text (← dotted))
    g.assignedValue limited name

def shownFilter (g : Grammar) : Parser Unit := do
  match ← oneOf? ["LIKE", "ILIKE", "WHERE"] with
  | some "WHERE" => discard g.expr
  | some _ => discard literalText
  | none => return

def shownNames (g : Grammar) (kind : String) : Parser Unit := do
  match kind with
  | "FUNCTIONS" => g.shownFilter
  | "TABLES" =>
    owner
    g.shownFilter
  | _ =>
    discard (oneOf ["FROM", "IN"])
    discard dotted
    owner
    g.shownFilter
where
  owner : Parser Unit := do
    if (← oneOf? ["FROM", "IN"]).isSome then discard ident

def showing (g : Grammar) : Parser Unit := do
  let extended ← keyword? "EXTENDED"
  let full ← keyword? "FULL"
  skipKeyword "SESSION"
  skipKeyword "GLOBAL"
  match ← oneOf? ["COLUMNS", "FIELDS", "TABLES", "FUNCTIONS"] with
  | some kind => g.shownNames kind
  | none =>
    if extended || full then failure
    match ← oneOf? ["CREATE", "COLLATION", "VARIABLES"] with
    | some "CREATE" =>
      discard (oneOf ["TABLE", "TRIGGER", "FUNCTION", "PROCEDURE", "EVENT", "VIEW"])
      discard dotted
    | some _ => g.shownFilter
    | none => modify (List.dropWhile (· != .symbol "="))

def procedureCall (g : Grammar) : Parser Unit := do
  let name ← dotted
  if ← seesSymbol "(" then discard (g.call name)

def execution (g : Grammar) : Parser Unit := do
  discard ident
  if ← seesSymbol "(" then discard (parenthesized (commaSeparated g.expr))

def assertion (g : Grammar) : Parser Unit := do
  discard g.expr
  discard (after? "AS" g.expr)

def preparation (inner : Parser Statement) : Parser Unit := do
  discard ident
  if ← seesSymbol "(" then discard (parenthesized (commaSeparated dataType))
  keyword "AS"
  discard inner

def declaration (g : Grammar) : Parser Unit := do
  discard ident
  skipKeyword "BINARY"
  skipOneOf ["INSENSITIVE", "ASENSITIVE"]
  discard (phrase? [["SCROLL"], ["NO", "SCROLL"]])
  keyword "CURSOR"
  if (← oneOf? ["WITH", "WITHOUT"]).isSome then keyword "HOLD"
  keyword "FOR"
  discard g.query

def cursorMove : Parser Unit := do
  match ← oneOf? ["NEXT", "PRIOR", "FIRST", "LAST", "ALL", "FORWARD", "BACKWARD", "ABSOLUTE",
    "RELATIVE"] with
  | some word =>
    if word ∈ ["FORWARD", "BACKWARD"] then
      unless ← keyword? "ALL" do numberValue
    else if word ∈ ["ABSOLUTE", "RELATIVE"] then numberValue
  | none => numberValue

def fetchRows : Parser Unit := do
  cursorMove
  discard (oneOf ["FROM", "IN"])
  discard ident
  discard (after? "INTO" dotted)

end TripleTable.Sql.Grammar
