import TripleTable.Sql.Token
set_option autoImplicit false

/-!
Syntax trees of SQL statements. What a rewriting has to understand is a tree of its own: columns,
literals, comparisons, subqueries, relations and joins. All other forms are kept as parts: the
words they are written with and the operands between them.
-/
namespace TripleTable.Sql

abbrev Name := List Ident

inductive ComparisonOp where
  | eq
  | lt
  | le
  | gt
  | ge
  | ne
deriving DecidableEq, Repr

namespace ComparisonOp

def symbol : ComparisonOp → String
  | eq => "="
  | lt => "<"
  | le => "<="
  | gt => ">"
  | ge => ">="
  | ne => "<>"

def text (op : ComparisonOp) : Text := op.symbol

def mirrored : ComparisonOp → ComparisonOp
  | lt => gt
  | gt => lt
  | le => ge
  | ge => le
  | eq => eq
  | ne => ne

def Holds : ComparisonOp → Int → Int → Prop
  | eq, x, y => x = y
  | lt, x, y => x < y
  | le, x, y => x ≤ y
  | gt, x, y => y < x
  | ge, x, y => y ≤ x
  | ne, x, y => x ≠ y

end ComparisonOp

inductive BinaryOp where
  | and
  | or
  | compare (op : ComparisonOp)
  | other (symbol : String)
deriving DecidableEq, Repr

def BinaryOp.text : BinaryOp → Text
  | and => "AND"
  | or => "OR"
  | compare op => op.text
  | other symbol => symbol

inductive UnaryOp where
  | plus
  | minus
  | not
deriving DecidableEq, Repr

-- Signs stand directly before their operand, a negation one space before it.
def UnaryOp.text : UnaryOp → Text
  | plus => "+"
  | minus => "-"
  | not => "NOT "

inductive SetOperator where
  | union
  | except
  | intersect
deriving DecidableEq, Repr

def SetOperator.text : SetOperator → Text
  | union => "UNION"
  | except => "EXCEPT"
  | intersect => "INTERSECT"

structure Alias where
  name : Ident
  columns : List Ident := []
deriving DecidableEq, Repr

mutual

inductive Expr where
  | column (name : Ident)
  | path (names : Name)
  | number (digits : Text) (long : Bool)
  | string (value : Text)
  | boolean (value : Bool)
  | null
  | nested (inner : Expr)
  | unary (op : UnaryOp) (operand : Expr)
  | binary (left : Expr) (op : BinaryOp) (right : Expr)
  | subquery (query : Query)
  | inSubquery (operand : Expr) (negated : Bool) (query : Query)
  | existsSubquery (negated : Bool) (query : Query)
  | form (parts : List Part)

inductive Part where
  | words (text : Text)
  | operand (expr : Expr)
  | query (query : Query)
  | source (source : Source)

-- A query: common table expressions, a body, and what orders and limits its rows.
structure Query where
  ctes : List Part
  body : Body
  tail : List Part

inductive Body where
  | select (block : Select)
  | nested (query : Query)
  | combined (left : Body) (op : SetOperator) (quantifier : Text) (right : Body)
  | other (parts : List Part)

-- One SELECT block. The head stands before the projection, the target and the lateral views
-- around the sources, and the tail, from GROUP BY on, behind the selection.
structure Select where
  head : List Part
  projection : List Item
  target : Text
  sources : List Source
  views : List Part
  selection : Option Expr
  tail : List Part

inductive Item where
  | parts (parts : List Part)
  | qualifiedWildcard (qualifier : Name) (options : List Part)

structure Source where
  relation : Relation
  joins : List Join

-- A joined relation: the words of the join, the relation, and its constraint.
structure Join where
  kind : Text
  relation : Relation
  constraint : List Part

structure Relation where
  factor : Factor
  aliased : Option Alias
  hints : List Part

inductive Factor where
  | table (name : Name) (arguments : List Part)
  | derived (lateral : Bool) (query : Query)
  | nested (inner : Source)
  | other (parts : List Part)

end

inductive Statement where
  | query (query : Query)
  | command (kind : Text)

end TripleTable.Sql
