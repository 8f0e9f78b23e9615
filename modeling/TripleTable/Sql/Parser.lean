import TripleTable.Sql.Syntax
set_option autoImplicit false

/-!
Readers of token lists: the next symbol, keyword or name, lists between commas, and groups in
parentheses. A reader either fails or leaves the tokens behind what it read.
-/
namespace TripleTable.Sql

abbrev Parser (α : Type) := StateT (List Token) Option α

namespace Parser

variable {α : Type}

def symbol? (symbol : String) : Parser Bool
  | .symbol other :: rest =>
    if other = symbol then some (true, rest) else some (false, .symbol other :: rest)
  | tokens => some (false, tokens)

def symbol (symbol : String) : Parser Unit := do
  unless ← symbol? symbol do failure

def keyword? (keyword : String) : Parser Bool
  | .word name :: rest =>
    if name.keyword = keyword then some (true, rest) else some (false, .word name :: rest)
  | tokens => some (false, tokens)

def keyword (keyword : String) : Parser Unit := do
  unless ← keyword? keyword do failure

def readKeywords : List String → Parser Unit
  | [] => return
  | first :: rest => do
    keyword first
    readKeywords rest

def attempt (p : Parser α) : Parser (Option α) := fun tokens =>
  match p tokens with
  | some (value, rest) => some (some value, rest)
  | none => some (none, tokens)

def keywords? (keywords : List String) : Parser Bool :=
  return (← attempt (readKeywords keywords)).isSome

def phrase? : List (List String) → Parser (Option (List String))
  | [] => return none
  | first :: rest => do
    if ← keywords? first then return some first else phrase? rest

def phrase (choices : List (List String)) : Parser Unit := do
  unless (← phrase? choices).isSome do failure

def oneOf? : List String → Parser (Option String)
  | [] => return none
  | first :: rest => do
    if ← keyword? first then return some first else oneOf? rest

def oneOf (keywords : List String) : Parser String := do
  match ← oneOf? keywords with
  | some found => return found
  | none => failure

def skipKeyword (word : String) : Parser Unit := discard (keyword? word)

def skipOneOf (words : List String) : Parser Unit := discard (oneOf? words)

def next : Parser Token
  | [] => none
  | token :: rest => some (token, rest)

def skipToken : Parser Unit := fun tokens => some ((), tokens.drop 1)

def atEnd : Parser Bool := fun tokens => some (tokens.isEmpty, tokens)

def sees (p : Token → Bool) : Parser Bool := fun tokens => some (tokens.head?.any p, tokens)

def seesSymbol (symbol : String) : Parser Bool := sees (· == .symbol symbol)

def seesKeyword (keywords : List String) : Parser Bool :=
  sees fun token =>
    match token with
    | .word name => keywords.contains name.keyword
    | _ => false

def seesWord : Parser Bool := sees Token.isWord

def ident : Parser Ident
  | .word name :: rest => some (name, rest)
  | .string value :: rest => some (⟨value, some '\''⟩, rest)
  | _ => none

def itemsUpTo (separator : String) (item : Parser α) : Nat → Parser (List α)
  | 0 => failure
  | n + 1 => do
    let first ← item
    if ← symbol? separator then return first :: (← itemsUpTo separator item n) else return [first]

def items (separator : String) (item : Parser α) : Parser (List α) := fun tokens =>
  itemsUpTo separator item (tokens.length + 1) tokens

def commaSeparated (item : Parser α) : Parser (List α) := items "," item

def dotted : Parser Name := items "." ident

def parenthesized (p : Parser α) : Parser α := do
  symbol "("
  let value ← p
  symbol ")"
  return value

def after? (first : String) (p : Parser α) : Parser (Option α) := do
  if ← keyword? first then return some (← p) else return none

def afterAll? (keywords : List String) (p : Parser α) : Parser (Option α) := do
  if ← keywords? keywords then return some (← p) else return none

def repeatUpTo (p : Parser (Option α)) : Nat → Parser (List α)
  | 0 => return []
  | n + 1 => do
    match ← p with
    | some value => return value :: (← repeatUpTo p n)
    | none => return []

def many (p : Parser (Option α)) : Parser (List α) := fun tokens =>
  repeatUpTo p (tokens.length + 1) tokens

def repeatWhile (p : Parser Bool) : Parser Unit :=
  discard (many do if ← p then return some () else return none)

-- Reads the first of the clauses that stands next, and returns the others.
def firstOf? : List (Parser Bool) → Parser (Option (List (Parser Bool)))
  | [] => return none
  | clause :: rest => do
    if ← clause then return some rest
    match ← firstOf? rest with
    | some others => return some (clause :: others)
    | none => return none

def eachOnceUpTo : Nat → List (Parser Bool) → Parser Unit
  | 0, _ => return
  | n + 1, clauses => do
    match ← firstOf? clauses with
    | some others => eachOnceUpTo n others
    | none => return

def eachOnce (clauses : List (Parser Bool)) : Parser Unit := eachOnceUpTo clauses.length clauses

def elementsUpTo (element : Parser Unit) : Nat → Parser Unit
  | 0 => failure
  | n + 1 => do
    element
    let more ← symbol? ","
    if ← symbol? ")" then return
    unless more do failure
    elementsUpTo element n

-- Elements in parentheses, if a parenthesis follows: none, or several with commas between them
-- and perhaps one behind the last.
def elements (element : Parser Unit) : Parser Unit := do
  if ← symbol? "(" then
    unless ← symbol? ")" do fun tokens => elementsUpTo element (tokens.length + 1) tokens

def columnList : Parser (List Ident) := parenthesized (commaSeparated ident)

def columnNames : Parser (List Ident) := do
  if ← seesSymbol "(" then columnList else return []

end Parser
end TripleTable.Sql
