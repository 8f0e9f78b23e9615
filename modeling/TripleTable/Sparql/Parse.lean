import TripleTable.Sparql.Pattern
set_option autoImplicit false

/-!
Reading of a whole SELECT query: prologue, SELECT clause and group. Nothing but blanks may follow,
and every prefix that a triple uses has to be declared.
-/
namespace TripleTable.Sparql
open Reader

def baseDecl : Reader Text := do
  spaced (keyword "BASE")
  within "Expected IRI in BASE declaration" (commit (spaced iriRef))

def prefixDecl : Reader PrefixDecl := do
  spaced (keyword "PREFIX")
  let label ← within "Expected 'prefix:' in PREFIX declaration" <| commit do
    let label ← run isNameChar
    char ':'
    return label
  let iri ← within "Expected namespace IRI in PREFIX declaration" (commit (spaced iriRef))
  return ⟨label, iri⟩

def prologueUpTo : Nat → Prologue → Reader Prologue
  | 0, declared => return declared
  | n + 1, declared => fun s =>
    match baseDecl s with
    | .ok (iri, rest) => prologueUpTo n { declared with base := some iri } rest
    | .error (.final trace) => .error (.final trace)
    | .error (.recoverable _) =>
      match prefixDecl s with
      | .ok (decl, rest) =>
        prologueUpTo n { declared with prefixes := declared.prefixes ++ [decl] } rest
      | .error (.final trace) => .error (.final trace)
      | .error (.recoverable _) => .ok (declared, s)

def prologue : Reader Prologue := fun s => prologueUpTo (s.length + 1) {} s

def modifier : Reader Modifier :=
  firstOf [
    do keyword "DISTINCT"
       return .distinct,
    do keyword "REDUCED"
       return .reduced]

def projection : Reader Projection :=
  firstOf [
    do spaced (char '*')
       return .all,
    Projection.named <$> many1 do
      let name ← spaced variableName
      let _ ← optional (spaced (char ','))
      return name]

def selectClause : Reader (Option Modifier × Projection) := do
  spaced (keyword "SELECT")
  let modifier ← optional (spaced modifier)
  let projection ← within "Error in SELECT clause: expected '*' or a list of variables"
    (commit projection)
  return (modifier, projection)

def selectQuery : Reader SelectQuery := do
  let prologue ← prologue
  let (modifier, projection) ← within "Expected SELECT query" selectClause
  let _ ← optional (spaced (keyword "WHERE"))
  let pattern ← within "Expected '\x7b' to open the graph pattern" (commit group)
  return { prologue, modifier, projection, pattern }

-- The label of the first prefixed name among the terms whose prefix is not declared.
def undeclared? (p : Prologue) (terms : List Term) : Option Text :=
  terms.findSome? fun term =>
    match term with
    | .prefixed label _ => if (p.namespace? label).isNone then some label else none
    | _ => none

def parseQuery (s : Text) : Except Trace SelectQuery :=
  match selectQuery s with
  | .error halt => .error halt.trace
  | .ok (query, rest) =>
    let rest := Text.trimStart rest
    if !rest.isEmpty then .error [⟨"Unexpected tokens after query", rest⟩]
    else
      match undeclared? query.prologue ((allTriples query.pattern).flatMap TriplePattern.terms) with
      | some label => .error [⟨"Undeclared prefix", label⟩]
      | none => .ok query

end TripleTable.Sparql
