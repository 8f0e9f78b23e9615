import TripleTable.Text.Basic
set_option autoImplicit false

/-!
Removal of comments. A number sign opens a comment unless it stands inside an IRI or a quoted
string; the comment runs to the end of its line. Afterwards every line loses its trailing blanks
and the whole text its outer ones.
-/
namespace TripleTable.Sparql

inductive Place where
  | plain
  | iri
  | quoted (quote : Char)
  | comment
deriving DecidableEq, Repr

namespace Place

def step (c : Char) : Place → Place × Bool
  | .comment => if c = '\n' then (.plain, true) else (.comment, false)
  | .quoted q => if c = q then (.plain, true) else (.quoted q, true)
  | .plain =>
    if c = '"' ∨ c = '\'' then (.quoted c, true)
    else if c = '<' then (.iri, true)
    else if c = '#' then (.comment, false)
    else (.plain, true)
  | .iri => if c = '>' ∨ isBlank c then (.plain, true) else (.iri, true)

end Place

def dropComments : Place → Text → Text
  | _, [] => []
  | place, c :: s =>
    let (next, kept) := place.step c
    if kept then c :: dropComments next s else dropComments next s

def tidyLines (s : Text) : Text :=
  Text.trim (Text.join "\n" ((Text.splitOn (· = '\n') s).map Text.trimEnd))

def stripComments (s : Text) : Text := tidyLines (dropComments .plain s)

end TripleTable.Sparql
