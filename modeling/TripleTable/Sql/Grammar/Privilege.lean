import TripleTable.Sql.Grammar.Query
set_option autoImplicit false

/-!
Statements that grant privileges, and those that take them back.
-/
namespace TripleTable.Sql.Grammar

open Sql.Parser

def permission : Parser Unit := do
  match ← oneOf? ["INSERT", "REFERENCES", "SELECT", "UPDATE"] with
  | some _ => discard columnNames
  | none =>
    discard (oneOf ["CONNECT", "CREATE", "DELETE", "EXECUTE", "TEMPORARY", "TRIGGER", "TRUNCATE",
      "USAGE"])

def privileges : Parser Unit := do
  if ← keyword? "ALL" then skipKeyword "PRIVILEGES"
  else discard (commaSeparated permission)

def privilegeObjects : Parser Unit := do
  discard (phrase? [["ALL", "TABLES", "IN", "SCHEMA"], ["ALL", "SEQUENCES", "IN", "SCHEMA"],
    ["SEQUENCE"], ["SCHEMA"], ["TABLE"]])
  discard (commaSeparated dotted)

def privilegesOf (word : String) : Parser Unit := do
  privileges
  keyword "ON"
  privilegeObjects
  keyword word
  discard (commaSeparated ident)

def grant : Parser Unit := do
  privilegesOf "TO"
  discard (keywords? ["WITH", "GRANT", "OPTION"])
  discard (afterAll? ["GRANTED", "BY"] ident)

def revoke : Parser Unit := do
  privilegesOf "FROM"
  discard (afterAll? ["GRANTED", "BY"] ident)
  if ← keyword? "CASCADE" then
    if ← keyword? "RESTRICT" then failure
  else skipKeyword "RESTRICT"

end TripleTable.Sql.Grammar
