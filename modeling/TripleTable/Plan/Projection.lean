import TripleTable.Plan.JoinPlan
set_option autoImplicit false

/-!
The projection of a query, read from its text: the words between the first SELECT and the first
WHERE that stand as words of their own, each resolved to the column its variable is bound to.
-/
namespace TripleTable.Plan
open Pattern (Defect)

-- One character for all that are equal up to letter case, the long s included.
def foldCase (c : Char) : Char :=
  if c.toNat = 0x17f then 's' else if c.toNat = 0x212a then 'k' else c.toLower

-- Whether a word may begin behind the given character: not inside another word, and not as the
-- name of a variable.
def opensWord : Option Char → Bool
  | none => true
  | some c => !(isWordChar c || c == '?' || c == '$')

def beginsWithWord : Text → Text → Bool
  | [], [] => true
  | [], c :: _ => !isWordChar c
  | _ :: _, [] => false
  | w :: word, c :: s => foldCase c == w && beginsWithWord word s

def findWord? (word : Text) : Option Char → Text → Option Nat
  | _, [] => none
  | before, c :: s =>
    if opensWord before && beginsWithWord word (c :: s) then some 0
    else (findWord? word (some c) s).map (· + 1)

def betweenSelectAndWhere? (s : Text) : Option Text :=
  match findWord? "select" none s, findWord? "where" none s with
  | some selectAt, some whereAt =>
    if whereAt < selectAt + 6 then none else some ((s.take whereAt).drop (selectAt + 6))
  | _, _ => none

structure ProjectionItem where
  variableName : Text
  column : Column
deriving DecidableEq, Repr

inductive ProjectionError where
  | missingSelectWhere
  | unbound (token : Text)
deriving DecidableEq, Repr

def isModifier (token : Text) : Bool :=
  Text.asciiLower token == "distinct" || Text.asciiLower token == "reduced"

def isSigil (c : Char) : Bool := c == '?' || c == '$'

def projectToken (bindings : Bindings) (token : Text) :
    Except ProjectionError (List ProjectionItem) :=
  if isModifier token then .ok []
  else if token = ['*'] then .ok (bindings.map fun (name, column) => ⟨name, column⟩)
  else
    let name := token.dropWhile isSigil
    match bindings.get? name with
    | some column => .ok [⟨name, column⟩]
    | none => .error (.unbound token)

def projectTokens (bindings : Bindings) :
    List Text → Except ProjectionError (List ProjectionItem)
  | [] => .ok []
  | token :: rest => do
    let items ← projectToken bindings token
    return items ++ (← projectTokens bindings rest)

def readProjection (s : Text) (bindings : Bindings) :
    Except ProjectionError (List ProjectionItem) :=
  match betweenSelectAndWhere? s with
  | none => .error .missingSelectWhere
  | some list => projectTokens bindings (Text.tokensOn (fun c => c == ',' || isBlank c) list)

end TripleTable.Plan
