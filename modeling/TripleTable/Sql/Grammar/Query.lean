import TripleTable.Sql.Grammar.Change
set_option autoImplicit false

/-!
Whole queries: a body, the named queries in front of it, and what orders and limits its rows.
-/
namespace TripleTable.Sql.Grammar

open Sql.Parser

def commonTable (g : Grammar) : Parser (List Part) := do
  let name ← ident
  let columns ← if ← seesSymbol "(" then columnList else pure []
  keyword "AS"
  let rows ← parenthesized g.query
  let origin : Text ←
    match ← after? "FROM" ident with
    | some name => pure (" FROM " ++ name.text)
    | none => pure []
  return [.words (Alias.text ⟨name, columns⟩ ++ " AS ("), .query rows, .words (")" ++ origin)]

def commonTables (g : Grammar) : Parser (List Part) := do
  if ← keyword? "WITH" then
    let recursive : Text ←
      if ← keyword? "RECURSIVE" then pure ("WITH RECURSIVE " : Text) else pure "WITH "
    return .words recursive :: separated ", " (← commaSeparated g.commonTable) ++ [.words " "]
  else return []

structure Limits where
  limit : Option Expr := none
  offset : Option (List Part) := none

namespace Limits

def readLimit (g : Grammar) (l : Limits) : Parser Limits := do
  if l.limit.isNone then
    if ← keyword? "LIMIT" then
      if ← keyword? "ALL" then return l
      return { l with limit := some (← g.expr) }
  return l

def readOffset (g : Grammar) (l : Limits) : Parser Limits := do
  if l.offset.isNone then
    if ← keyword? "OFFSET" then
      let e ← g.expr
      let rows : Text ←
        match ← oneOf? ["ROW", "ROWS"] with
        | some word => pure (' ' :: word.toList)
        | none => pure []
      return { l with offset := some [.words " OFFSET ", .operand e, .words rows] }
  return l

def readPair (g : Grammar) (l : Limits) : Parser Limits := do
  match l.limit, l.offset with
  | some first, none =>
    if ← symbol? "," then
      return { limit := some (← g.expr), offset := some [.words " OFFSET ", .operand first] }
    else return l
  | _, _ => return l

def readRound (g : Grammar) (l : Limits) : Parser Limits := do
  readPair g (← readOffset g (← readLimit g l))

def parts (l : Limits) : List Part :=
  maybeParts " LIMIT " l.limit ++ l.offset.getD []

end Limits

def fetch : Parser (List Part) := do
  if ← keyword? "FETCH" then
    let _ ← oneOf ["FIRST", "NEXT"]
    let quantity : List Part ←
      match ← oneOf? ["ROW", "ROWS"] with
      | some _ => pure [.words " FETCH FIRST ROWS "]
      | none =>
        let count ← value
        let percent ← optionalWord "PERCENT"
        let _ ← oneOf ["ROW", "ROWS"]
        pure [.words (" FETCH FIRST " ++ count ++ percent ++ " ROWS ")]
    if ← keyword? "ONLY" then return quantity ++ [.words "ONLY"]
    keyword "WITH"
    keyword "TIES"
    return quantity ++ [.words "WITH TIES"]
  else return []

def lock : Parser Text := do
  let kind ← oneOf ["UPDATE", "SHARE"]
  let table : Text ←
    match ← after? "OF" dotted with
    | some name => pure (" OF " ++ name.text)
    | none => pure []
  let waiting : Text ←
    if ← keyword? "NOWAIT" then pure (" NOWAIT" : Text)
    else if ← keywords? ["SKIP", "LOCKED"] then pure (" SKIP LOCKED" : Text)
    else pure []
  return " FOR " ++ kind.toList ++ table ++ waiting

def enclosedText : Parser Text := parenthesized literalText

def elementName : Parser Text := do
  if ← seesSymbol "(" then return "('" ++ (← enclosedText) ++ "')" else return []

-- The options between commas that a reader finds, the last of each kind; a comma may stand
-- without one.
def formatOptions (read : List (String × Text) → Parser (List (String × Text))) :
    Nat → List (String × Text) → Parser (List (String × Text))
  | 0, _ => failure
  | n + 1, found => do
    if ← symbol? "," then formatOptions read n (← read found) else return found

def jsonOption (found : List (String × Text)) : Parser (List (String × Text)) := do
  match ← oneOf? ["ROOT", "INCLUDE_NULL_VALUES", "WITHOUT_ARRAY_WRAPPER"] with
  | some "ROOT" => return ("ROOT", "ROOT('" ++ (← enclosedText) ++ "')") :: found
  | some word => return (word, word.toList) :: found
  | none => return found

def xmlOption (found : List (String × Text)) : Parser (List (String × Text)) := do
  match ← oneOf? ["ELEMENTS", "BINARY", "ROOT", "TYPE"] with
  | some "ROOT" => return ("ROOT", "ROOT('" ++ (← enclosedText) ++ "')") :: found
  | some "BINARY" =>
    keyword "BASE64"
    return ("BINARY", "BINARY BASE64") :: found
  | some word => return (word, word.toList) :: found
  | none => return found

def optionsText (order : List String) (found : List (String × Text)) : Text :=
  (order.filterMap fun word => List.lookup word found).flatMap (", " ++ ·)

def format? : Parser (Option Text) := fun tokens =>
  (do
    match ← oneOf? ["XML", "JSON", "BROWSE"] with
    | some "XML" =>
      let shape ← oneOf ["RAW", "AUTO", "EXPLICIT", "PATH"]
      let element ← if shape ∈ ["RAW", "PATH"] then elementName else pure []
      let options ← formatOptions xmlOption (tokens.length + 1) []
      return some (" FOR XML " ++ shape.toList ++ element ++
        optionsText ["BINARY", "TYPE", "ROOT", "ELEMENTS"] options)
    | some "JSON" =>
      let shape ← oneOf ["AUTO", "PATH"]
      let options ← formatOptions jsonOption (tokens.length + 1) []
      return some (" FOR JSON " ++ shape.toList ++
        optionsText ["ROOT", "INCLUDE_NULL_VALUES", "WITHOUT_ARRAY_WRAPPER"] options)
    | some _ => return some " FOR BROWSE"
    | none => return none) tokens

def purposes : Nat → Parser Text
  | 0 => failure
  | n + 1 => do
    if ← keyword? "FOR" then
      match ← format? with
      | some format => return format
      | none => return (← lock) ++ (← purposes n)
    else return []

def changeBody (g : Grammar) : Parser (Option Body) := do
  if ← keyword? "INSERT" then
    return some (.other (← g.insertRows "INSERT"))
  else if ← keyword? "UPDATE" then return some (.other (← g.updateRows))
  else return none

def orderedBody (g : Grammar) (ctes : List Part) : Parser Query := fun tokens =>
  (do
    let body ← g.body (tokens.length + 1) 0
    let order ← g.orderBy " ORDER BY "
    let limits ← Limits.readRound g (← Limits.readRound g {})
    let perGroup ← g.clause ["BY"] " BY "
    let fetch ← fetch
    let purposes ← purposes (tokens.length + 1)
    return Query.mk ctes body
      (order ++ limits.parts ++ perGroup ++ fetch ++ [Part.words purposes])) tokens

def wholeQuery (g : Grammar) : Parser Query := do
  let ctes ← g.commonTables
  match ← g.changeBody with
  | some body => return ⟨ctes, body, []⟩
  | none => g.orderedBody ctes

def ofDepth : Nat → Grammar
  | 0 => ⟨failure, failure⟩
  | n + 1 => ⟨(ofDepth n).wholeExpr, (ofDepth n).wholeQuery⟩

end TripleTable.Sql.Grammar
