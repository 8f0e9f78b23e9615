import TripleTable.Sql.Grammar.Query
set_option autoImplicit false

/-!
What a table is defined by: its columns and what is said of each, its constraints, and how its
rows are stored. Nothing of a definition is kept, so its readers only tell whether they found one.
-/
namespace TripleTable.Sql.Grammar

open Sql.Parser

def unlessThere : Parser Unit := discard (keywords? ["IF", "NOT", "EXISTS"])

def ifThere : Parser Unit := discard (keywords? ["IF", "EXISTS"])

def exprList (g : Grammar) : Parser (List Expr) := parenthesized (commaSeparated g.expr)

def option (g : Grammar) : Parser Unit := do
  discard ident
  symbol "="
  discard g.expr

def options (g : Grammar) (word : String) : Parser Unit :=
  discard (after? word (parenthesized (commaSeparated g.option)))

def referentialAction : Parser Unit :=
  phrase [["RESTRICT"], ["CASCADE"], ["SET", "NULL"], ["NO", "ACTION"], ["SET", "DEFAULT"]]

def referentialActions : Parser Unit := eachOnce [action "DELETE", action "UPDATE"]
where
  action (event : String) : Parser Bool :=
    return (← afterAll? ["ON", event] referentialAction).isSome

def characteristics : Parser Unit :=
  eachOnce [
    return (← phrase? [["NOT", "DEFERRABLE"], ["DEFERRABLE"]]).isSome,
    return (← after? "INITIALLY" (oneOf ["DEFERRED", "IMMEDIATE"])).isSome,
    return (← phrase? [["ENFORCED"], ["NOT", "ENFORCED"]]).isSome]

def sequenceLimit (word : String) : Parser Unit := do
  unless ← keywords? ["NO", word] do discard (after? word numberValue)

def sequenceOptions : Parser Unit := do
  discard (after? "INCREMENT" do
    skipKeyword "BY"
    numberValue)
  sequenceLimit "MINVALUE"
  sequenceLimit "MAXVALUE"
  discard (after? "START" do
    skipKeyword "WITH"
    numberValue)
  discard (after? "CACHE" numberValue)
  discard (phrase? [["NO", "CYCLE"], ["CYCLE"]])

def numbering : Parser Unit := do
  if ← seesSymbol "(" then parenthesized sequenceOptions

def computation (g : Grammar) : Parser Unit := do
  discard (parenthesized g.expr)
  skipOneOf ["STORED", "VIRTUAL"]

-- Where the values of a column come from, behind the first word. Unless one of these ways is
-- given, the words before are passed over and say nothing.
def generation (g : Grammar) : Parser Bool := do
  match ← phrase? [["ALWAYS", "AS", "IDENTITY"], ["BY", "DEFAULT", "AS", "IDENTITY"]] with
  | some _ =>
    numbering
    return true
  | none =>
    if ← keywords? ["ALWAYS", "AS"] then
      if ← seesSymbol "(" then
        g.computation
        return true
    return false

def columnOption (g : Grammar) : Parser Bool := do
  match ← phrase? [["CHARACTER", "SET"], ["NOT", "NULL"], ["COMMENT"], ["NULL"], ["DEFAULT"],
    ["PRIMARY", "KEY"], ["UNIQUE"], ["REFERENCES"], ["CHECK"], ["AUTO_INCREMENT"],
    ["AUTOINCREMENT"], ["ON", "UPDATE"], ["GENERATED"], ["OPTIONS"], ["AS"]] with
  | some words =>
    match words.head? with
    | some "CHARACTER" => discard dotted
    | some "COMMENT" => discard rawString
    | some "DEFAULT" => discard g.expr
    | some "PRIMARY" => characteristics
    | some "UNIQUE" => characteristics
    | some "REFERENCES" =>
      discard dotted
      discard columnNames
      referentialActions
      characteristics
    | some "CHECK" => discard (parenthesized g.expr)
    | some "ON" => discard g.expr
    | some "GENERATED" => return ← g.generation
    | some "OPTIONS" => discard (parenthesized (commaSeparated g.option))
    | some "AS" => g.computation
    | _ => pure ()
    return true
  | none => return false

def columnTrait (g : Grammar) : Parser Bool := do
  if ← keyword? "CONSTRAINT" then
    discard ident
    unless ← g.columnOption do failure
    return true
  else if ← g.columnOption then return true
  else return (← after? "COLLATE" dotted).isSome

def columnDefinition (g : Grammar) : Parser Unit := do
  discard ident
  discard dataType
  discard (after? "COLLATE" dotted)
  repeatWhile g.columnTrait

def constraintBody (g : Grammar) (word : String) : Parser Unit := do
  match word with
  | "CHECK" => discard (parenthesized g.expr)
  | "FOREIGN" =>
    keyword "KEY"
    discard columnList
    keyword "REFERENCES"
    discard dotted
    discard columnList
    referentialActions
    characteristics
  | "INDEX" => indexBody
  | "KEY" => indexBody
  | "FULLTEXT" => textIndexBody
  | "SPATIAL" => textIndexBody
  | _ =>
    skipKeyword "KEY"
    discard (attempt ident)
    discard columnList
    characteristics
where
  indexBody : Parser Unit := do
    unless ← seesKeyword ["USING"] do discard (attempt ident)
    discard (after? "USING" (oneOf ["BTREE", "HASH"]))
    discard columnList
  textIndexBody : Parser Unit := do
    skipOneOf ["KEY", "INDEX"]
    discard (attempt ident)
    discard columnList

def tableConstraint (g : Grammar) : Parser Bool := do
  let name ← after? "CONSTRAINT" ident
  match ← oneOf? ["PRIMARY", "UNIQUE", "FOREIGN", "CHECK", "INDEX", "KEY", "FULLTEXT",
    "SPATIAL"] with
  | some word =>
    if name.isSome ∧ word ∈ ["FULLTEXT", "SPATIAL"] then failure
    g.constraintBody word
    return true
  | none => if name.isSome then failure else return false

def tableElement (g : Grammar) : Parser Unit := do
  unless ← g.tableConstraint do
    unless ← seesWord do failure
    g.columnDefinition

def distribution (g : Grammar) : Parser Unit :=
  discard (afterAll? ["PARTITIONED", "BY"] (parenthesized (commaSeparated g.columnDefinition)))

def storageClause (g : Grammar) : Parser Bool := do
  match ← oneOf? ["ROW", "STORED", "LOCATION"] with
  | some "ROW" =>
    keyword "FORMAT"
    if (← oneOf? ["SERDE", "DELIMITED"]) = some "SERDE" then discard literalText
    return true
  | some "STORED" =>
    keyword "AS"
    if ← keyword? "INPUTFORMAT" then
      discard g.expr
      keyword "OUTPUTFORMAT"
      discard g.expr
    else discard fileFormat
    return true
  | some _ =>
    discard literalText
    return true
  | none => return false

def storage (g : Grammar) : Parser Unit := repeatWhile g.storageClause

end TripleTable.Sql.Grammar
