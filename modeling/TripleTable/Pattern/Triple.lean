import TripleTable.Text.Basic
set_option autoImplicit false

/-!
Triples as the planner sees them: every term is a variable or a full text, and a constant
predicate names the table that holds its pairs of subject and object.
-/
namespace TripleTable.Pattern

inductive Term where
  | variable (name : Text)
  | constant (text : Text)
deriving DecidableEq, Repr

def Term.variable? : Term → Option Text
  | .variable name => some name
  | .constant _ => none

structure Triple where
  subject : Term
  predicate : Term
  object : Term
deriving DecidableEq, Repr

def afterLastSlash (s : Text) : Text := Text.afterLast (· == '/') s

def localName (iri : Text) : Text :=
  if iri.contains '#' then Text.afterLast (· == '#') iri else afterLastSlash iri

namespace Triple

def table? (t : Triple) : Option Text :=
  match t.predicate with
  | .constant iri => some (localName iri)
  | .variable _ => none

def variableNames (t : Triple) : List Text := [t.subject, t.object].filterMap Term.variable?

end Triple

inductive Defect where
  | empty
  | variablePredicate (index : Nat)
  | bothTermsConcrete (index : Nat)
  | disconnected (index : Nat)
  | missingSelectWhere
deriving DecidableEq, Repr

namespace Defect

def message : Defect → Text
  | empty => "empty pattern"
  | variablePredicate i => "variable predicate in triple " ++ Text.ofNat i
  | bothTermsConcrete i => "both terms concrete in triple " ++ Text.ofNat i
  | disconnected i =>
    "disconnected pattern: triple " ++ Text.ofNat i ++
      " shares no variable with the anchor triple"
  | missingSelectWhere => "missing SELECT/WHERE"

end Defect
end TripleTable.Pattern
