import TripleTable.Pattern.Triple
import TripleTable.Sparql.Query
set_option autoImplicit false

/-!
The triples of a query: nested groups are flattened in document order, MINUS blocks left out, and
every name is written in full.
-/
namespace TripleTable.Pattern
open Sparql (Prologue Element Group)

def Term.ofQuery (p : Prologue) : Sparql.Term → Term
  | .variable name => .variable name
  | .iri text => .constant (p.resolve text)
  | .prefixed label name => .constant ((p.expand? label name).getD (label ++ ':' :: name))
  | .rdfType => .constant Sparql.rdfTypeIri
  | .literal lexical => .constant lexical

def Triple.ofQuery (p : Prologue) (t : Sparql.TriplePattern) : Triple :=
  ⟨.ofQuery p t.subject, .ofQuery p t.predicate, .ofQuery p t.object⟩

mutual

def ofGroup (p : Prologue) : Group → List Triple
  | [] => []
  | element :: rest => ofElement p element ++ ofGroup p rest

def ofElement (p : Prologue) : Element → List Triple
  | .triples block => block.map (Triple.ofQuery p)
  | .group elements => ofGroup p elements
  | .minus _ => []

end

end TripleTable.Pattern
