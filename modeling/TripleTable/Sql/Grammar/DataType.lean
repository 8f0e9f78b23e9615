import TripleTable.Sql.Grammar.Literal
set_option autoImplicit false

/-!
Data types, read as the text in which they are written down again.
-/
namespace TripleTable.Sql.Grammar

open Sql.Parser

def lengthArguments (limit : Nat) : Parser (List Text) := do
  if ← seesSymbol "(" then
    let numbers ← parenthesized (commaSeparated count)
    if limit < numbers.length then failure
    return numbers.map Text.ofNat
  else return []

def argumentsText : List Text → Text
  | [] => []
  | arguments => '(' :: Text.join "," arguments ++ [')']

def lengths (limit : Nat) : Parser Text := return argumentsText (← lengthArguments limit)

def optionalWord (word : String) : Parser Text := do
  if ← keyword? word then return ' ' :: word.toList else return []

def timeZone : Parser Text := do
  match ← oneOf? ["WITH", "WITHOUT"] with
  | some word =>
    keyword "TIME"
    keyword "ZONE"
    return ' ' :: word.toList ++ " TIME ZONE"
  | none => return []

def characterLength : Parser Text := do
  if ← symbol? "(" then
    if ← keyword? "MAX" then
      symbol ")"
      return "(MAX)"
    let length ← count
    let unit : Text ←
      match ← oneOf? ["CHARACTERS", "OCTETS"] with
      | some unit => pure (' ' :: unit.toList)
      | none => pure []
    symbol ")"
    return '(' :: Text.ofNat length ++ unit ++ [')']
  else return []

inductive TypeArguments where
  | nothing
  | length
  | precision
  | display
  | zoned
  | text
  | characters
  | double
  | choice

def TypeArguments.read : TypeArguments → Parser Text
  | nothing => return []
  | length => lengths 1
  | precision => lengths 2
  | display => return (← lengths 1) ++ (← optionalWord "UNSIGNED")
  | zoned => return (← lengths 1) ++ (← timeZone)
  | text => characterLength
  | characters => do
    if ← keyword? "VARYING" then return " VARYING" ++ (← characterLength)
    else if ← keywords? ["LARGE", "OBJECT"] then return " LARGE OBJECT" ++ (← lengths 1)
    else characterLength
  | double => optionalWord "PRECISION"
  | choice =>
    return '(' :: Text.join ", " ((← strings).map fun s => (Expr.string s).text) ++ [')']

def typeNames : List (String × TypeArguments) := [
  ("BOOLEAN", .nothing), ("BOOL", .nothing), ("REAL", .nothing), ("FLOAT4", .nothing),
  ("FLOAT8", .nothing), ("FLOAT64", .nothing), ("INT64", .nothing), ("BYTEA", .nothing),
  ("UUID", .nothing), ("DATE", .nothing), ("JSON", .nothing), ("JSONB", .nothing),
  ("REGCLASS", .nothing), ("TEXT", .nothing),
  ("FLOAT", .length), ("NVARCHAR", .length), ("CLOB", .length), ("BINARY", .length),
  ("VARBINARY", .length), ("BLOB", .length), ("BYTES", .length), ("DATETIME", .length),
  ("STRING", .length), ("TIMESTAMPTZ", .length), ("TIMETZ", .length),
  ("NUMERIC", .precision), ("DECIMAL", .precision), ("DEC", .precision),
  ("BIGNUMERIC", .precision), ("BIGDECIMAL", .precision),
  ("TINYINT", .display), ("INT2", .display), ("SMALLINT", .display), ("MEDIUMINT", .display),
  ("INT", .display), ("INT4", .display), ("INT8", .display), ("INTEGER", .display),
  ("BIGINT", .display),
  ("TIMESTAMP", .zoned), ("TIME", .zoned),
  ("VARCHAR", .text), ("CHAR", .characters), ("CHARACTER", .characters),
  ("DOUBLE", .double), ("ENUM", .choice), ("SET", .choice)]

-- What a type means for a string behind it: an ordinary type makes it a literal, an interval a
-- duration, and a type of a name unknown here nothing.
inductive TypeKind where
  | ordinary
  | interval
  | custom
deriving DecidableEq

-- A type as written, and whether the symbol `>>` behind it has closed the type around it too.
structure TypeText where
  text : Text
  kind : TypeKind := .ordinary
  closedOuter : Bool := false

def closeAngle (closed : Bool) : Parser Bool := do
  if closed then return false
  else if ← symbol? ">" then return false
  else
    symbol ">>"
    return true

-- The arguments of a type of an unknown name: words, numbers and strings, with commas anywhere
-- between them.
def modifiers : List Token → Option (List Text × List Token)
  | .word name :: rest => (modifiers rest).map fun (more, rest) => (name.bare :: more, rest)
  | .number digits _ :: rest => (modifiers rest).map fun (more, rest) => (digits :: more, rest)
  | .string content :: rest => (modifiers rest).map fun (more, rest) => (content :: more, rest)
  | .symbol "," :: rest => modifiers rest
  | .symbol ")" :: rest => some ([], rest)
  | _ => none

def customType : Parser TypeText := do
  let name ← dotted
  if ← symbol? "(" then
    match ← modifiers with
    | [] => return { text := name.text, kind := .custom }
    | written =>
      return { text := name.text ++ "(" ++ Text.join ", " written ++ ")", kind := .custom }
  else return { text := name.text, kind := .custom }

def arrayType (inner : Parser TypeText) : Parser TypeText := do
  symbol "<"
  let element ← inner
  let closed ← closeAngle element.closedOuter
  return { text := "ARRAY<" ++ element.text ++ ">", closedOuter := closed }

def plainType (inner : Parser TypeText) : Parser TypeText := do
  if ← keyword? "ARRAY" then arrayType inner
  else if ← keyword? "INTERVAL" then return { text := "INTERVAL", kind := .interval }
  else
    match ← oneOf? (typeNames.map Prod.fst) with
    | some name =>
      match typeNames.lookup name with
      | some arguments => return { text := name.toList ++ (← arguments.read) }
      | none => failure
    | none =>
      unless ← seesWord do failure
      customType

def brackets : Parser (Option Text) := do
  if ← symbol? "[" then
    symbol "]"
    return some "[]".toList
  else return none

def typeUpTo : Nat → Parser TypeText
  | 0 => failure
  | n + 1 => do
    let element ← plainType (typeUpTo n)
    match ← many brackets with
    | [] => return element
    | pairs => return { element with text := element.text ++ pairs.flatten, kind := .ordinary }

def openType : Parser TypeText := fun tokens => typeUpTo (tokens.length + 1) tokens

def completeType : Parser TypeText := do
  let t ← openType
  if t.closedOuter then failure
  return t

def dataType : Parser Text := return (← completeType).text

def field : Parser TypeText := do
  let named ← sees fun token =>
    match token with
    | .word name => !keywords.contains (inCapitals name.value)
    | _ => true
  let lead : Text ← if named then pure ((← ident).text ++ " ") else pure []
  let type ← openType
  return { type with text := lead ++ type.text }

def fieldsUpTo : Nat → Parser (List Text × Bool)
  | 0 => failure
  | n + 1 => do
    let first ← field
    if ← symbol? "," then
      if first.closedOuter then failure
      let (rest, closed) ← fieldsUpTo n
      return (first.text :: rest, closed)
    else return ([first.text], ← closeAngle first.closedOuter)

def structureFields : Parser (List Text) := do
  if ← symbol? "<" then
    let (fields, closedOuter) ← fun tokens => fieldsUpTo tokens.length tokens
    if closedOuter then failure
    return fields
  else return []

end TripleTable.Sql.Grammar
