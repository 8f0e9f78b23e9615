import TripleTable.Sql.Syntax
set_option autoImplicit false

/-!
Whether an expression somewhere in a tree is a subquery: a query as a value, behind IN, or behind
EXISTS.
-/
namespace TripleTable.Sql

mutual

def Expr.hasSubquery : Expr → Bool
  | .column _ => false
  | .path _ => false
  | .number _ _ => false
  | .string _ => false
  | .boolean _ => false
  | .null => false
  | .nested inner => inner.hasSubquery
  | .unary _ operand => operand.hasSubquery
  | .binary left _ right => left.hasSubquery || right.hasSubquery
  | .subquery _ => true
  | .inSubquery _ _ _ => true
  | .existsSubquery _ _ => true
  | .form parts => partsHaveSubquery parts

def Part.hasSubquery : Part → Bool
  | .words _ => false
  | .operand e => e.hasSubquery
  | .query q => q.hasSubquery
  | .source s => s.hasSubquery

def partsHaveSubquery : List Part → Bool
  | [] => false
  | part :: rest => part.hasSubquery || partsHaveSubquery rest

def Query.hasSubquery : Query → Bool
  | ⟨ctes, body, tail⟩ => partsHaveSubquery ctes || body.hasSubquery || partsHaveSubquery tail

def Body.hasSubquery : Body → Bool
  | .select block => block.hasSubquery
  | .nested q => q.hasSubquery
  | .combined left _ _ right => left.hasSubquery || right.hasSubquery
  | .other parts => partsHaveSubquery parts

def Select.hasSubquery : Select → Bool
  | ⟨head, projection, _, sources, views, selection, tail⟩ =>
    partsHaveSubquery head || itemsHaveSubquery projection || sourcesHaveSubquery sources ||
      partsHaveSubquery views || selectionHasSubquery selection || partsHaveSubquery tail

def selectionHasSubquery : Option Expr → Bool
  | none => false
  | some condition => condition.hasSubquery

def Item.hasSubquery : Item → Bool
  | .parts parts => partsHaveSubquery parts
  | .qualifiedWildcard _ options => partsHaveSubquery options

def itemsHaveSubquery : List Item → Bool
  | [] => false
  | item :: rest => item.hasSubquery || itemsHaveSubquery rest

def Source.hasSubquery : Source → Bool
  | ⟨relation, joins⟩ => relation.hasSubquery || joinsHaveSubquery joins

def sourcesHaveSubquery : List Source → Bool
  | [] => false
  | source :: rest => source.hasSubquery || sourcesHaveSubquery rest

def joinsHaveSubquery : List Join → Bool
  | [] => false
  | join :: rest => join.hasSubquery || joinsHaveSubquery rest

def Join.hasSubquery : Join → Bool
  | ⟨_, relation, constraint⟩ => relation.hasSubquery || partsHaveSubquery constraint

def Relation.hasSubquery : Relation → Bool
  | ⟨factor, _, hints⟩ => factor.hasSubquery || partsHaveSubquery hints

def Factor.hasSubquery : Factor → Bool
  | .table _ arguments => partsHaveSubquery arguments
  | .derived _ q => q.hasSubquery
  | .nested inner => inner.hasSubquery
  | .other parts => partsHaveSubquery parts

end

end TripleTable.Sql
