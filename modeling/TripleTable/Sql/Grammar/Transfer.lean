import TripleTable.Sql.Grammar.Query
set_option autoImplicit false

/-!
Statements that copy rows between tables and files.
-/
namespace TripleTable.Sql.Grammar

open Sql.Parser

def switch : Parser Unit := skipOneOf ["TRUE", "FALSE"]

def copyOption : Parser Unit := do
  match ← oneOf ["FORMAT", "FREEZE", "DELIMITER", "NULL", "HEADER", "QUOTE", "ESCAPE",
    "FORCE_QUOTE", "FORCE_NOT_NULL", "FORCE_NULL", "ENCODING"] with
  | "FORMAT" => discard ident
  | "FREEZE" => switch
  | "HEADER" => switch
  | "NULL" => discard literalText
  | "ENCODING" => discard literalText
  | "FORCE_QUOTE" => discard columnList
  | "FORCE_NOT_NULL" => discard columnList
  | "FORCE_NULL" => discard columnList
  | _ => discard literalChar

def separatedValuesOption : Parser Unit := do
  match ← phrase? [["HEADER"], ["QUOTE"], ["ESCAPE"], ["FORCE", "NOT", "NULL"],
    ["FORCE", "QUOTE"]] with
  | some ["HEADER"] => return
  | some ("FORCE" :: _) => discard (commaSeparated ident)
  | some _ =>
    skipKeyword "AS"
    discard literalChar
  | none => failure

def bareCopyOption : Parser Unit := do
  match ← oneOf ["BINARY", "DELIMITER", "NULL", "CSV"] with
  | "DELIMITER" =>
    skipKeyword "AS"
    discard literalChar
  | "NULL" =>
    skipKeyword "AS"
    discard literalText
  | "CSV" => discard (many (attempt separatedValuesOption))
  | _ => return

-- What follows rows of text up to a backslash and a period; a backslash takes the
-- token behind it along.
def afterTextRows : List Token → List Token
  | [] => []
  | token :: rest =>
    if token = .symbol "\\" then
      match rest with
      | [] => []
      | behind :: rest => if behind = .symbol "." then rest else afterTextRows rest
    else afterTextRows rest

def copyTarget : Parser Bool := do
  match ← oneOf? ["STDIN", "STDOUT", "PROGRAM"] with
  | some "STDIN" => return true
  | some "STDOUT" => return false
  | _ =>
    discard literalText
    return false

def copy (g : Grammar) : Parser Unit := do
  if ← symbol? "(" then
    discard g.query
    symbol ")"
    keyword "TO"
  else
    discard dotted
    discard columnNames
    discard (oneOf ["FROM", "TO"])
  let rowsFollow ← copyTarget
  skipKeyword "WITH"
  if ← seesSymbol "(" then discard (parenthesized (commaSeparated copyOption))
  discard (many (attempt bareCopyOption))
  if rowsFollow then
    symbol ";"
    modify afterTextRows

end TripleTable.Sql.Grammar
