import TripleTable.Yaml.Node
set_option autoImplicit false

/-!
The one document of a YAML text.
-/
namespace TripleTable.Yaml

structure Document where
  root : Node
  numbered : Numbered

def Document.ofRoot (root : Node) : Document := ⟨root, root.numbered⟩

structure Directives where
  hasVersion : Bool := false
  handles : Handles := []

def readDirectives : Directives → List Token → Option (Directives × List Token)
  | found, .version major minor :: rest =>
    if found.hasVersion ∨ major ≠ 1 ∨ (minor ≠ 1 ∧ minor ≠ 2) then none
    else readDirectives { found with hasVersion := true } rest
  | found, .handle name lead :: rest =>
    if (found.handles.lookup name).isSome then none
    else readDirectives { found with handles := (name, lead) :: found.handles } rest
  | found, rest => some (found, rest)

def endsDocument : List Token → Bool
  | [] => true
  | .version _ _ :: _ => true
  | .handle _ _ :: _ => true
  | token :: _ => token == .documentStart || token == .documentEnd

def readRoot (handles : Handles) (tokens : List Token) : Option (Node × List Token) :=
  (node handles (4 * tokens.length + 4) .block (tokens, [])).map fun (root, rest, _) => (root, rest)

def readMarked (tokens : List Token) : Option (Node × List Token) := do
  let (directives, rest) ← readDirectives {} tokens
  match rest with
  | .documentStart :: rest =>
    if endsDocument rest then return (.missing, rest)
    else readRoot (directives.handles ++ defaultHandles) rest
  | _ => none

def beginsMarked : List Token → Bool
  | .version _ _ :: _ => true
  | .handle _ _ :: _ => true
  | token :: _ => token == .documentStart
  | [] => false

def document? (s : Text) : Option Document := do
  let tokens ← tokens? s
  if tokens.isEmpty then return .ofRoot .missing
  let (root, rest) ← if beginsMarked tokens then readMarked tokens else readRoot defaultHandles tokens
  if rest.all (· == .documentEnd) then some (.ofRoot root) else none

end TripleTable.Yaml
