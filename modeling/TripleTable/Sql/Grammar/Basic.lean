import TripleTable.Sql.Grammar.DataType
set_option autoImplicit false

/-!
What the rules of the grammar share: the readers of what stands in parentheses, the ranks by which
operators bind, orderings, and lists of arguments.
-/
namespace TripleTable.Sql

structure Grammar where
  expr : Parser Expr
  query : Parser Query

namespace Grammar

open Sql.Parser

def separated (separator : Text) : List (List Part) → List Part
  | [] => []
  | [item] => item
  | item :: rest => item ++ .words separator :: separated separator rest

def listed (exprs : List Expr) : List Part :=
  separated ", " (exprs.map fun e => [.operand e])

def maybeParts (lead : Text) : Option Expr → List Part
  | some e => [.words lead, .operand e]
  | none => []

def orRank : Nat := 5
def andRank : Nat := 10
def notRank : Nat := 15
def isRank : Nat := 17
def likeRank : Nat := 19
def comparisonRank : Nat := 20
def factorRank : Nat := 40

def accessRank : Nat := 50

-- The parts of the expression grammar that read on at a given rank, and up to the
-- next AND, OR or XOR.
structure Lower where
  above : Nat → Parser Expr
  duration : Parser Expr

def dateTimeField : Parser Text := return (← oneOf dateTimeFields).toList

def durationQualifier : Parser Text := do
  match ← oneOf? durationFields with
  | some "SECOND" =>
    match ← lengthArguments 2 with
    | [] => return " SECOND"
    | numbers => return " SECOND (" ++ Text.join ", " numbers ++ ")"
  | first =>
    let lead : Text := match first with
      | some field => ' ' :: field.toList
      | none => []
    let precision ← spacedLength
    if ← keyword? "TO" then
      let last ← dateTimeField
      let fraction ← if last = ("SECOND" : Text) then spacedLength else pure []
      return lead ++ precision ++ " TO " ++ last ++ fraction
    else return lead ++ precision
where
  spacedLength : Parser Text := do
    match ← lengthArguments 1 with
    | [] => return []
    | numbers => return ' ' :: argumentsText numbers

def interval (lower : Lower) : Parser Expr := do
  let e ← lower.duration
  return .form [.words "INTERVAL ", .operand e, .words (← durationQualifier)]

def ordering : Parser Text := do
  let direction : Text ←
    if ← keyword? "ASC" then pure (" ASC" : Text)
    else if ← keyword? "DESC" then pure (" DESC" : Text)
    else pure []
  if ← keywords? ["NULLS", "FIRST"] then return direction ++ " NULLS FIRST"
  else if ← keywords? ["NULLS", "LAST"] then return direction ++ " NULLS LAST"
  else return direction

def orderByItem (g : Grammar) : Parser (List Part) := do
  let e ← g.expr
  return [.operand e, .words (← ordering)]

def orderByItems (g : Grammar) : Parser (List Part) :=
  return separated ", " (← commaSeparated g.orderByItem)

def orderBy (g : Grammar) (lead : Text) : Parser (List Part) := do
  match ← afterAll? ["ORDER", "BY"] g.orderByItems with
  | some items => return .words lead :: items
  | none => return []

def limit? (g : Grammar) : Parser (Option Expr) := do
  if ← keyword? "LIMIT" then
    if ← keyword? "ALL" then return none else return some (← g.expr)
  else return none

def distinct (g : Grammar) : Parser (Option (List Part)) := do
  let all ← keyword? "ALL"
  if ← keyword? "DISTINCT" then
    if all then failure
    if ← keyword? "ON" then
      symbol "("
      if ← symbol? ")" then return some [.words " DISTINCT ON ()"]
      let columns ← commaSeparated g.expr
      symbol ")"
      return some (.words " DISTINCT ON (" :: listed columns ++ [.words ")"])
    else return some [.words " DISTINCT"]
  else return none

def wildcard : Parser (List Ident) := do
  match ← next with
  | .symbol "*" => return []
  | .word name => restOf name
  | .string value => restOf ⟨value, some '\''⟩
  | _ => failure
where
  names : Nat → Parser (List Ident)
    | 0 => failure
    | n + 1 => do
      symbol "."
      if ← symbol? "*" then return []
      else return (← ident) :: (← names n)
  restOf (name : Ident) : Parser (List Ident) := fun tokens =>
    (return name :: (← names tokens.length)) tokens

def wildcardText : List Ident → Text
  | [] => ['*']
  | names => Name.text names ++ ".*"

def argumentValue (g : Grammar) : Parser (List Part) := do
  match ← attempt wildcard with
  | some names => return [.words (wildcardText names)]
  | none => return [.operand (← g.expr)]

def argumentName : Parser Text := do
  let name ← ident
  symbol "=>"
  return name.text ++ " => "

def argument (g : Grammar) : Parser (List Part) := do
  match ← attempt argumentName with
  | some lead => return .words lead :: (← g.argumentValue)
  | none => g.argumentValue

def arguments (g : Grammar) : Parser (List Part) := do
  if ← symbol? ")" then return []
  let values := separated ", " (← commaSeparated g.argument)
  let order ← g.orderBy " ORDER BY "
  symbol ")"
  return values ++ order

end Grammar
end TripleTable.Sql
