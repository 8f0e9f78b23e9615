import TripleTable.Sparql.Parse
set_option autoImplicit false

/-!
The literals of a query, and what a change of every literal does to it: the shape of its groups
stays, and so do its names and IRIs.
-/
namespace TripleTable.Sparql

namespace Term

def mapLiteral (f : Text → Text) : Term → Term
  | literal lexical => literal (f lexical)
  | term => term

def literal? : Term → Option Text
  | literal lexical => some lexical
  | _ => none

end Term

def TriplePattern.mapLiterals (f : Text → Text) (t : TriplePattern) : TriplePattern :=
  ⟨t.subject.mapLiteral f, t.predicate.mapLiteral f, t.object.mapLiteral f⟩

mutual

def mapLiterals (f : Text → Text) : Group → Group
  | [] => []
  | element :: rest => element.mapLiterals f :: mapLiterals f rest

def Element.mapLiterals (f : Text → Text) : Element → Element
  | .triples block => .triples (block.map (TriplePattern.mapLiterals f))
  | .group elements => .group (Sparql.mapLiterals f elements)
  | .minus elements => .minus (Sparql.mapLiterals f elements)

end

def SelectQuery.mapLiterals (f : Text → Text) (q : SelectQuery) : SelectQuery :=
  { q with pattern := Sparql.mapLiterals f q.pattern }

def SelectQuery.literals (q : SelectQuery) : List Text :=
  (allTriples q.pattern).flatMap fun t => t.terms.filterMap Term.literal?

section
variable (f : Text → Text)

theorem terms_map (t : TriplePattern) :
    (t.mapLiterals f).terms = t.terms.map (Term.mapLiteral f) := rfl

mutual

theorem triples_map (group : Group) :
    allTriples (mapLiterals f group) = (allTriples group).map (TriplePattern.mapLiterals f) := by
  cases group with
  | nil => rfl
  | cons element rest =>
    simp only [mapLiterals, allTriples, List.map_append, element_triples_map element,
      triples_map rest]

theorem element_triples_map (element : Element) :
    (element.mapLiterals f).allTriples = element.allTriples.map (TriplePattern.mapLiterals f) := by
  cases element with
  | triples block => rfl
  | group elements => exact triples_map elements
  | minus elements => exact triples_map elements

end

theorem cons_block_map (block : List TriplePattern) (group : Group) :
    mapLiterals f (consBlock block group) =
      consBlock (block.map (TriplePattern.mapLiterals f)) (mapLiterals f group) := by
  cases group with
  | nil => rfl
  | cons element rest =>
    cases element with
    | triples more => simp only [consBlock, mapLiterals, Element.mapLiterals, List.map_append]
    | group elements => rfl
    | minus elements => rfl

-- No prefix stands in a literal.
theorem undeclared_map (declared : Prologue) (terms : List Term) :
    undeclared? declared (terms.map (Term.mapLiteral f)) = undeclared? declared terms := by
  unfold undeclared?
  rw [List.findSome?_map]
  congr 1
  funext term
  cases term with
  | «variable» name => rfl
  | iri text => rfl
  | «prefixed» label name => rfl
  | rdfType => rfl
  | literal lexical => rfl

end

section
variable {f : Text → Text}

theorem map_kept {α : Type} {g : α → α} {values : List α} :
    values.map g = values ↔ ∀ value ∈ values, g value = value := by
  have same := @List.map_inj_left α α values g id
  rwa [List.map_id] at same

theorem term_kept (term : Term) :
    term.mapLiteral f = term ↔ ∀ lexical ∈ term.literal?, f lexical = lexical := by
  cases term with
  | «variable» name => simp [Term.mapLiteral, Term.literal?]
  | iri text => simp [Term.mapLiteral, Term.literal?]
  | «prefixed» label name => simp [Term.mapLiteral, Term.literal?]
  | rdfType => simp [Term.mapLiteral, Term.literal?]
  | literal lexical => simp [Term.mapLiteral, Term.literal?]

theorem triple_kept (t : TriplePattern) :
    t.mapLiterals f = t ↔ ∀ term ∈ t.terms, term.mapLiteral f = term := by
  rw [← map_kept]
  cases t
  simp [TriplePattern.mapLiterals, TriplePattern.terms]

mutual

theorem group_kept (group : Group) :
    mapLiterals f group = group ↔ ∀ t ∈ allTriples group, t.mapLiterals f = t := by
  cases group with
  | nil => simp [mapLiterals, allTriples]
  | cons element rest =>
    simp only [mapLiterals, allTriples, List.cons.injEq, List.forall_mem_append,
      element_kept element, group_kept rest]

theorem element_kept (element : Element) :
    element.mapLiterals f = element ↔ ∀ t ∈ element.allTriples, t.mapLiterals f = t := by
  cases element with
  | triples block =>
    simp only [Element.mapLiterals, Element.allTriples, Element.triples.injEq, map_kept]
  | group elements =>
    simp only [Element.mapLiterals, Element.allTriples, Element.group.injEq, group_kept elements]
  | minus elements =>
    simp only [Element.mapLiterals, Element.allTriples, Element.minus.injEq, group_kept elements]

end

theorem query_kept (q : SelectQuery) :
    q.mapLiterals f = q ↔ ∀ lexical ∈ q.literals, f lexical = lexical := by
  have pattern : q.mapLiterals f = q ↔ mapLiterals f q.pattern = q.pattern := by
    cases q
    simp [SelectQuery.mapLiterals]
  have listed (lexical : Text) : lexical ∈ q.literals ↔
      ∃ t ∈ allTriples q.pattern, ∃ term ∈ t.terms, lexical ∈ term.literal? := by
    simp [SelectQuery.literals]
  simp only [pattern, group_kept, triple_kept, term_kept, listed]
  constructor
  · rintro kept lexical ⟨t, triple, term, inside, literal⟩
    exact kept t triple term inside lexical literal
  · exact fun kept t triple term inside lexical literal =>
      kept lexical ⟨t, triple, term, inside, literal⟩

end

end TripleTable.Sparql
