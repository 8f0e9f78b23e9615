import TripleTable.Sql.Keyword
import TripleTable.Sql.Parser
import TripleTable.Sql.Printer
set_option autoImplicit false

/-!
Literal values and placeholders that stand by themselves, read as the text in which they are
written down again.
-/
namespace TripleTable.Sql.Grammar

open Sql.Parser

def countBound : Nat := 0x10000000000000000

def count : Parser Nat
  | .number digits _ :: rest => do
    let n ← Text.toNat? digits
    if n < countBound then some (n, rest) else none
  | _ => none

def literalText : Parser Text
  | .string value :: rest => some (value, rest)
  | .escaped value :: rest => some (value, rest)
  | .word name :: rest => if name.keyword ∈ keywords then none else some (name.value, rest)
  | _ => none

def literalChar : Parser Char := do
  match ← literalText with
  | [c] => if c.toNat < 128 then return c else failure
  | _ => failure

def placeholder (mark : Text) : Parser Text
  | .word name :: rest => some (mark ++ name.value, rest)
  | .number digits false :: rest => some (mark ++ digits, rest)
  | _ => none

def valueWords : List String := ["LOCATION", "TYPE", "DATE", "START", "END"]

def wordValue (name : Ident) : Option Text :=
  match name.quote with
  | some '"' => some name.text
  | some _ => none
  | none =>
    if name.keyword = "TRUE" then some "true"
    else if name.keyword = "FALSE" then some "false"
    else if name.keyword = "NULL" then some "NULL"
    else if name.keyword ∈ keywords ∧ name.keyword ∉ valueWords then none
    else some name.value

def value : Parser Text := do
  match ← next with
  | .word name =>
    match wordValue name with
    | some written => return written
    | none => failure
  | .number digits long => return (Expr.number digits long).text
  | .string content => return (Expr.string content).text
  | .escaped content => return escapedText content
  | .literal written => return written
  | .symbol ":" => placeholder ":"
  | .symbol "@" => placeholder "@"
  | _ => failure

def isPlaceholder (written : Text) : Bool :=
  match written with
  | '?' :: _ => true
  | '$' :: rest => !rest.contains '$'
  | _ => false

def numberValue : Parser Unit := do
  match ← next with
  | .number _ _ => return
  | .literal written => if isPlaceholder written then return else failure
  | .symbol ":" =>
    let _ ← placeholder ":"
  | .symbol "@" =>
    let _ ← placeholder "@"
  | _ => failure

def strings : Parser (List Text) := parenthesized (commaSeparated string)
where
  string : Parser Text
    | .string content :: rest => some (content, rest)
    | _ => none

end TripleTable.Sql.Grammar
