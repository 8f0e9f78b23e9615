import TripleTable.Sql.Syntax
set_option autoImplicit false

/-!
The text of a syntax tree: keywords in capitals, one space between words, names, numbers and
strings as they were written.
-/
namespace TripleTable.Sql

-- Writes text that goes between two quotes. A quote is written twice; one behind a backslash is
-- taken to be escaped already, and two adjacent quotes to be doubled already.
def escapeQuotes (quote : Char) : Char → Text → Text
  | _, [] => []
  | previous, [c] =>
    if c = quote then if previous = '\\' then [c] else [c, c] else [c]
  | previous, c :: d :: s =>
    if c = quote then
      if previous = '\\' then c :: escapeQuotes quote previous (d :: s)
      else if d = quote then c :: c :: escapeQuotes quote c s
      else c :: c :: escapeQuotes quote c (d :: s)
    else c :: escapeQuotes quote c (d :: s)

def quoteText (quote : Char) (s : Text) : Text :=
  quote :: escapeQuotes quote '\x00' s ++ [quote]

def escapeChar (c : Char) : Text :=
  if c = '\'' then "\\'"
  else if c = '\\' then "\\\\"
  else if c = '\n' then "\\n"
  else if c = '\t' then "\\t"
  else if c = '\r' then "\\r"
  else [c]

def escapedText (s : Text) : Text := "E'" ++ s.flatMap escapeChar ++ "'"

def Ident.text (name : Ident) : Text :=
  match name.quote with
  | some quote => quoteText quote name.value
  | none => name.value

def Ident.bare (name : Ident) : Text :=
  match name.quote with
  | some quote => quote :: name.value ++ [quote]
  | none => name.value

def Name.text (name : Name) : Text := Text.join "." (name.map Ident.text)

def Name.key (name : Name) : Text := Text.join "." (name.map Ident.value)

def Name.ofKey (key : Text) : Name := (Text.splitOn (· == '.') key).map fun value => ⟨value, none⟩

def columnsText : List Ident → Text
  | [] => []
  | names => " (" ++ Text.join ", " (names.map Ident.text) ++ ")"

def Alias.text (a : Alias) : Text := a.name.text ++ columnsText a.columns

def negation (negated : Bool) : Text := if negated then "NOT " else ""

mutual

def Expr.text : Expr → Text
  | .column name => name.text
  | .path names => names.text
  | .number digits long => digits ++ if long then ['L'] else []
  | .string value => quoteText '\'' value
  | .boolean value => if value then "true" else "false"
  | .null => "NULL"
  | .nested inner => '(' :: inner.text ++ [')']
  | .unary op operand => op.text ++ operand.text
  | .binary left op right => left.text ++ " " ++ op.text ++ " " ++ right.text
  | .subquery query => '(' :: query.text ++ [')']
  | .inSubquery operand negated query =>
    operand.text ++ " " ++ negation negated ++ "IN (" ++ query.text ++ ")"
  | .existsSubquery negated query => negation negated ++ "EXISTS (" ++ query.text ++ ")"
  | .form parts => partsText parts

def Part.text : Part → Text
  | .words text => text
  | .operand expr => expr.text
  | .query q => q.text
  | .source s => s.text

def partsText : List Part → Text
  | [] => []
  | part :: rest => part.text ++ partsText rest

def Query.text : Query → Text
  | ⟨ctes, body, tail⟩ => partsText ctes ++ body.text ++ partsText tail

def Body.text : Body → Text
  | .select block => block.text
  | .nested query => '(' :: query.text ++ [')']
  | .combined left op quantifier right =>
    left.text ++ " " ++ op.text ++ quantifier ++ " " ++ right.text
  | .other parts => partsText parts

def Select.text : Select → Text
  | ⟨head, projection, target, sources, views, selection, tail⟩ =>
    "SELECT" ++ partsText head ++ " " ++ itemsText projection ++ target ++ sourcesText sources ++
      partsText views ++ selectionText selection ++ partsText tail

def selectionText : Option Expr → Text
  | none => []
  | some condition => " WHERE " ++ condition.text

def Item.text : Item → Text
  | .parts parts => partsText parts
  | .qualifiedWildcard qualifier options => qualifier.text ++ ".*" ++ partsText options

def itemsText : List Item → Text
  | [] => []
  | item :: rest => item.text ++ moreItemsText rest

def moreItemsText : List Item → Text
  | [] => []
  | item :: rest => ", " ++ item.text ++ moreItemsText rest

def Source.text : Source → Text
  | ⟨relation, joins⟩ => relation.text ++ joinsText joins

def sourcesText : List Source → Text
  | [] => []
  | source :: rest => " FROM " ++ source.text ++ moreSourcesText rest

def moreSourcesText : List Source → Text
  | [] => []
  | source :: rest => ", " ++ source.text ++ moreSourcesText rest

def joinsText : List Join → Text
  | [] => []
  | join :: rest => join.text ++ joinsText rest

def Join.text : Join → Text
  | ⟨kind, relation, constraint⟩ => kind ++ relation.text ++ partsText constraint

def Relation.text : Relation → Text
  | ⟨factor, aliased, hints⟩ =>
    factor.text ++
      (match aliased with
        | some a => " AS " ++ a.text
        | none => []) ++
      partsText hints

def Factor.text : Factor → Text
  | .table name arguments => name.text ++ partsText arguments
  | .derived lateral query =>
    (if lateral then ("LATERAL " : Text) else "") ++ '(' :: query.text ++ [')']
  | .nested inner => '(' :: inner.text ++ [')']
  | .other parts => partsText parts

end

-- Rewriting with these is much faster than unfolding the definitions.
theorem select_text (head : List Part) (projection : List Item) (target : Text)
    (sources : List Source) (views : List Part) (selection : Option Expr) (tail : List Part) :
    Select.text ⟨head, projection, target, sources, views, selection, tail⟩ =
      "SELECT".toList ++ partsText head ++ " ".toList ++ itemsText projection ++ target ++
        sourcesText sources ++ partsText views ++ selectionText selection ++ partsText tail :=
  rfl

theorem selection_text (condition : Expr) :
    selectionText (some condition) = " WHERE ".toList ++ condition.text :=
  rfl

end TripleTable.Sql
