import TripleTable.Sparql.Query
import TripleTable.Sparql.Reader
set_option autoImplicit false

/-!
Readers for keywords and for the terms of a triple.
-/
namespace TripleTable.Sparql
open Reader

def isNameChar (c : Char) : Bool := isAlphanumeric c || c == '_' || c == '-'

def isVariableChar (c : Char) : Bool := isAlphanumeric c || c == '_'

def isLocalChar (c : Char) : Bool := isNameChar c || c == '.'

def isIriChar (c : Char) : Bool := c != '>' && !isBlank c

def keyword (word : Text) : Reader Unit := fun s =>
  match Text.afterNoCase? word s with
  | none => .error (.recoverable [unexpected s])
  | some rest =>
    match rest with
    | c :: _ =>
      if isNameChar c || c == ':' then .error (.recoverable [unexpected rest]) else .ok ((), rest)
    | [] => .ok ((), rest)

def variableName : Reader Text := do
  let _ ← oneOf fun c => c == '?' || c == '$'
  run1 isVariableChar

def iriRef : Reader Text := do
  char '<'
  let iri ← run isIriChar
  char '>'
  return iri

-- The local part of a prefixed name: it may hold dots, but the dots at its end belong to the
-- pattern around it.
def localPart : Reader Text := fun s =>
  let raw := s.takeWhile isLocalChar
  let name := (raw.reverse.dropWhile (· == '.')).reverse
  .ok (name, s.drop name.length)

def prefixedName : Reader (Text × Text) := fun s =>
  let label := s.takeWhile isNameChar
  if label.head? = some '-' then
    .error (.recoverable [⟨"Prefix cannot start with '-'", s⟩])
  else
    (do char ':'
        let name ← localPart
        return (label, name)) (s.dropWhile isNameChar)

def quoted (quote : Char) : Reader Text := do
  char quote
  let lexical ← run (· != quote)
  char quote
  return lexical

def stringSuffix : Reader Unit :=
  firstOf [
    do char '@'
       let _ ← run1 isNameChar,
    do text "^^"
       firstOf [
         do let _ ← iriRef,
         do let _ ← prefixedName]]

def stringLiteral : Reader Text := do
  let lexical ← firstOf [quoted '"', quoted '\'']
  let _ ← optional stringSuffix
  return lexical

def isSign (c : Char) : Bool := c == '+' || c == '-'

def fraction : Reader Unit := do
  char '.'
  let _ ← run1 Char.isDigit

def numericLiteral : Reader Text := matched do
  let _ ← optional (oneOf isSign)
  firstOf [
    do let _ ← run1 Char.isDigit
       let _ ← optional fraction,
    fraction]
  let _ ← optional do
    let _ ← oneOf fun c => c == 'e' || c == 'E'
    let _ ← optional (oneOf isSign)
    run1 Char.isDigit

def booleanLiteral : Reader Text :=
  firstOf [matched (keyword "true"), matched (keyword "false")]

def namedTerm : Reader Term :=
  firstOf [
    Term.variable <$> variableName,
    Term.iri <$> iriRef,
    (fun name => Term.prefixed name.1 name.2) <$> prefixedName]

def verb : Reader Term :=
  firstOf [
    do keyword "a"
       return Term.rdfType,
    namedTerm]

def objectTerm : Reader Term :=
  firstOf [
    Term.literal <$> stringLiteral,
    namedTerm,
    Term.literal <$> numericLiteral,
    Term.literal <$> booleanLiteral]

end TripleTable.Sparql
