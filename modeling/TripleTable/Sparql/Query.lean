import TripleTable.Text.Basic
set_option autoImplicit false

/-!
A SELECT query over one tree of graph patterns, as it is written: names, IRIs and literals are kept
as text, prefixed names unexpanded, nested groups and MINUS blocks in place.
-/
namespace TripleTable.Sparql

def rdfTypeIri : Text := "http://www.w3.org/1999/02/22-rdf-syntax-ns#type"

inductive Term where
  | variable (name : Text)
  | iri (text : Text)
  | prefixed (label name : Text)
  | rdfType
  | literal (lexical : Text)
deriving DecidableEq, Repr

structure TriplePattern where
  subject : Term
  predicate : Term
  object : Term
deriving DecidableEq, Repr

def TriplePattern.terms (t : TriplePattern) : List Term := [t.subject, t.predicate, t.object]

inductive Element where
  | triples (block : List TriplePattern)
  | group (elements : List Element)
  | minus (elements : List Element)
deriving Repr

abbrev Group := List Element

structure PrefixDecl where
  label : Text
  iri : Text
deriving DecidableEq, Repr

structure Prologue where
  base : Option Text := none
  prefixes : List PrefixDecl := []
deriving DecidableEq, Repr

inductive Modifier where
  | distinct
  | reduced
deriving DecidableEq, Repr

inductive Projection where
  | all
  | named (names : List Text)
deriving DecidableEq, Repr

structure SelectQuery where
  prologue : Prologue
  modifier : Option Modifier
  projection : Projection
  pattern : Group
deriving Repr

namespace Prologue

def namespace? (p : Prologue) (label : Text) : Option Text :=
  (p.prefixes.reverse.find? fun decl => decl.label = label).map PrefixDecl.iri

def expand? (p : Prologue) (label name : Text) : Option Text :=
  (p.namespace? label).map (· ++ name)

-- An IRI without a colon is relative: it is put behind the base, if one is declared.
def resolve (p : Prologue) (iri : Text) : Text :=
  match p.base with
  | some base => if iri.contains ':' then iri else base ++ iri
  | none => iri

end Prologue

mutual

def allTriples : Group → List TriplePattern
  | [] => []
  | element :: rest => element.allTriples ++ allTriples rest

def Element.allTriples : Element → List TriplePattern
  | .triples block => block
  | .group elements => Sparql.allTriples elements
  | .minus elements => Sparql.allTriples elements

end

-- Puts a block of triples in front of a group, joining it to a block that already stands there.
def consBlock (block : List TriplePattern) : Group → Group
  | .triples more :: rest => .triples (block ++ more) :: rest
  | rest => .triples block :: rest

end TripleTable.Sparql
