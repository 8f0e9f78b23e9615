import TripleTable.Sparql.Term
set_option autoImplicit false

/-!
Readers for triples and groups. A group is read element by element; what it may not hold is
refused by name at the keyword.
-/
namespace TripleTable.Sparql
open Reader

abbrev VerbObject := Term × Term

def verbObjects : Reader (List VerbObject) := do
  let predicate ← spaced verb
  let objects ← within "Expected object"
    (commit (separated (spaced (char ',')) (spaced objectTerm)))
  return objects.map fun object => (predicate, object)

def verbObjectsBehindUpTo : Nat → Reader (List VerbObject)
  | 0 => return []
  | n + 1 => fun s =>
    match spaced (char ';') s with
    | .error _ => .ok ([], s)
    | .ok (_, rest) =>
      match verbObjects rest with
      | .ok (pairs, rest) => (do return pairs ++ (← verbObjectsBehindUpTo n)) rest
      | .error (.recoverable _) => verbObjectsBehindUpTo n rest
      | .error (.final trace) => .error (.final trace)

def predicateObjectList : Reader (List VerbObject) := do
  let first ← verbObjects
  fun s => (do return first ++ (← verbObjectsBehindUpTo (s.length + 1))) s

-- A subject with its list of predicates and objects: one triple for each object.
def sameSubject : Reader (List TriplePattern) := do
  let subject ← within "Expected subject" (spaced namedTerm)
  let pairs ← within "Expected predicate and object after subject" (commit predicateObjectList)
  return pairs.map fun pair => ⟨subject, pair.1, pair.2⟩

def unsupported : List (Text × String) := [
  ("OPTIONAL", "OPTIONAL graph patterns are not supported"),
  ("FILTER", "FILTER constraints are not supported"),
  ("UNION", "UNION graph patterns are not supported"),
  ("GRAPH", "Named GRAPH patterns are not supported"),
  ("BIND", "BIND assignments are not supported"),
  ("VALUES", "Inline VALUES data is not supported"),
  ("SERVICE", "SERVICE patterns are not supported")]

def unsupported? (s : Text) : Option String :=
  (unsupported.find? fun construct => (keyword construct.1 s).isOk).map Prod.snd

def openBrace : Reader Unit := spaced (char '\x7b')

def elementsUpTo : Nat → Reader Group
  | 0 => fun s => .error (.final [unexpected s])
  | n + 1 => fun s =>
    let s := s.dropWhile isSpace
    match s with
    | [] => .error (.final [⟨"Unclosed group pattern: expected '\x7d'", s⟩])
    | c :: rest =>
      if c = '\x7d' then .ok ([], rest)
      else if let some message := unsupported? s then .error (.final [⟨message, s⟩])
      else if c = '.' then elementsUpTo n rest
      else
        match spaced (keyword "MINUS") s with
        | .ok (_, rest) =>
          (do let inner ← within "Error in MINUS block" (commit do openBrace; elementsUpTo n)
              return Element.minus inner :: (← elementsUpTo n)) rest
        | .error _ =>
          if c = '\x7b' then
            (do let inner ← (do openBrace; elementsUpTo n)
                return Element.group inner :: (← elementsUpTo n)) s
          else
            (do let block ← within "Error in triple pattern" (commit sameSubject)
                return consBlock block (← elementsUpTo n)) s

def group : Reader Group := fun s => (do openBrace; elementsUpTo (s.length + 1)) s

end TripleTable.Sparql
