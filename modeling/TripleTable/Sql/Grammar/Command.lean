import TripleTable.Sql.Grammar.Alteration
import TripleTable.Sql.Grammar.Maintenance
import TripleTable.Sql.Grammar.Privilege
import TripleTable.Sql.Grammar.Session
import TripleTable.Sql.Grammar.Transfer
set_option autoImplicit false

/-!
Statements: a query, or a command, which is read in full and of which only its kind is kept.
-/
namespace TripleTable.Sql.Grammar

open Sql.Parser

def kindOf (parts : List Part) : Text := (partsText parts).takeWhile (· != ' ')

def kept (kind : String) (p : Parser Unit) : Parser Text := do
  p
  return kind.toList

-- The first words of the commands, and how they are read on; `inner` reads statements within,
-- and `block` several of them.
def commands (g : Grammar) (inner : Parser Statement) (block : Parser Unit) :
    List (String × Parser Text) :=
  changes ++ others.map fun (word, read) => (word, kept word read)
where
  changes : List (String × Parser Text) := [
    ("INSERT", return kindOf (← g.insertRows "INSERT")),
    ("REPLACE", return kindOf (← g.insertRows "REPLACE")),
    ("END", kept "COMMIT" endOfTransaction)]
  others : List (String × Parser Unit) := [
    ("DELETE", g.deleteRows),
    ("UPDATE", discard g.updateRows),
    ("MERGE", g.mergeRows),
    ("COPY", g.copy),
    ("CREATE", g.create block),
    ("ALTER", g.alter),
    ("DROP", g.drop),
    ("TRUNCATE", g.truncate),
    ("GRANT", grant),
    ("REVOKE", revoke),
    ("SET", g.setting),
    ("SHOW", g.showing),
    ("USE", discard ident),
    ("START", start),
    ("BEGIN", beginning),
    ("COMMIT", endOfTransaction),
    ("ROLLBACK", rollback),
    ("SAVEPOINT", discard ident),
    ("RELEASE", do skipKeyword "SAVEPOINT"; discard ident),
    ("CALL", g.procedureCall),
    ("EXECUTE", g.execution),
    ("PREPARE", preparation inner),
    ("DEALLOCATE", do skipKeyword "PREPARE"; discard ident),
    ("DECLARE", g.declaration),
    ("FETCH", fetchRows),
    ("CLOSE", discard ident),
    ("ASSERT", g.assertion),
    ("DISCARD", discard (oneOf ["ALL", "PLANS", "SEQUENCES", "TEMP", "TEMPORARY"])),
    ("ANALYZE", g.analysis),
    ("MSCK", repair),
    ("CACHE", g.caching),
    ("UNCACHE", uncaching),
    ("FLUSH", flushing),
    ("KILL", killing),
    ("ATTACH", g.attachment),
    ("PRAGMA", pragma)]

def command (g : Grammar) (inner : Parser Statement) (block : Parser Unit) :
    Parser Statement := do
  match ← next with
  | .word name =>
    match (g.commands inner block).lookup name.keyword with
    | some read => return .command (← read)
    | none => failure
  | _ => failure

def explanation (inner : Parser Statement) : Parser Statement := do
  let first ← oneOf ["EXPLAIN", "DESCRIBE"]
  skipKeyword "ANALYZE"
  skipKeyword "VERBOSE"
  discard (after? "FORMAT" (oneOf ["TEXT", "GRAPHVIZ", "JSON"]))
  match ← attempt inner with
  | some (.command kind) =>
    if kind = ("EXPLAIN" : Text) ∨ kind = ("DESCRIBE" : Text) then failure
  | some (.query _) => pure ()
  | none => discard dotted
  return .command first.toList

-- Statements with semicolons between them, in at most so many steps; the word END behind a
-- statement ends them.
def statementsUpTo (statement : Parser Statement) : Nat → Parser (List Statement)
  | 0 => failure
  | n + 1 => do
    modify (List.dropWhile (· == .symbol ";"))
    if ← atEnd then return []
    let first ← statement
    if ← atEnd then return [first]
    if ← seesKeyword ["END"] then return [first]
    unless ← seesSymbol ";" do failure
    return first :: (← statementsUpTo statement n)

def statements (statement : Parser Statement) : Parser (List Statement) := fun tokens =>
  statementsUpTo statement (tokens.length + 1) tokens

def statement : Nat → Parser Statement
  | 0 => failure
  | n + 1 => do
    if ← seesSymbol "(" then return .query (← (ofDepth n).query)
    else if ← seesKeyword ["SELECT", "WITH", "VALUES"] then return .query (← (ofDepth n).query)
    else if ← seesKeyword ["EXPLAIN", "DESCRIBE"] then explanation (statement n)
    else (ofDepth n).command (statement n) (discard (statements (statement n)))

end TripleTable.Sql.Grammar
