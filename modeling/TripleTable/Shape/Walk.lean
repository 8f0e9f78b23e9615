import TripleTable.Shape.Basic
import TripleTable.Sql.Nesting
import TripleTable.Sql.Printer
set_option autoImplicit false

/-!
The shape of a statement, if it is one SELECT block over tables whose condition is a conjunction of
comparisons.
-/
namespace TripleTable
open Sql

inductive ShapeDefect where
  | nestedSubquery
  | unsupportedExpression (text : Text)
  | notASelect (text : Text)
  | statementCount (count : Nat)
  | unsupportedRelation (text : Text)
deriving DecidableEq, Repr

def ShapeDefect.message : ShapeDefect → Text
  | nestedSubquery => "nested subquery"
  | unsupportedExpression text => "unsupported expression: " ++ text
  | notASelect text => "expected a SELECT query, found " ++ text
  | statementCount count => "expected exactly one statement, found " ++ Text.ofNat count
  | unsupportedRelation text => "unsupported relation: " ++ text

namespace Shape

-- Integers lie below this bound; numbers beyond it are read as binary64 numbers.
def integerBound : Int := 0x8000000000000000

def number? (digits : Text) : Option Literal :=
  match Text.toInt? digits with
  | some n =>
    if -integerBound ≤ n ∧ n < integerBound then some (.integer n)
    else (Text.toDouble? digits).map .float
  | none => (Text.toDouble? digits).map .float

def literal : Expr → Except ShapeDefect Literal
  | .number digits long =>
    match number? digits with
    | some value => .ok value
    | none => .error (.unsupportedExpression (Expr.number digits long).text)
  | .string value => .ok (.string value)
  | .boolean value => .ok (.identifier (Expr.boolean value).text)
  | .null => .ok (.identifier Expr.null.text)
  | .unary .minus operand => do
    match ← literal operand with
    | .integer value => return .integer (-value)
    | .float value => return .float (-value)
    | _ => throw (.unsupportedExpression (Expr.unary .minus operand).text)
  | .unary .plus operand => literal operand
  | .nested inner => literal inner
  | .column name => .ok (.identifier name.text)
  | .path names => .ok (.identifier names.text)
  | e => .error (.unsupportedExpression e.text)

def columnRef? : Expr → Option ColumnRef
  | .column name => some ⟨none, name.value⟩
  | .path names =>
    names.getLast?.map fun column =>
      ⟨if names.dropLast.isEmpty then none else some (Name.key names.dropLast), column.value⟩
  | .nested inner => columnRef? inner
  | _ => none

-- A comparison with the column on its left; the operator is mirrored if it stood on the right.
def normalize (left : Expr) (op : ComparisonOp) (right : Expr) : Except ShapeDefect Comparison :=
  match columnRef? left with
  | some column => return ⟨column, op, ← literal right⟩
  | none =>
    match columnRef? right with
    | some column => return ⟨column, op.mirrored, ← literal left⟩
    | none => throw (.unsupportedExpression (Expr.binary left (.compare op) right).text)

def isInteger : Except ShapeDefect Literal → Bool
  | .ok (.integer _) => true
  | _ => false

-- The column that all terms of a disjunction compare with an integer for equality.
def disjunctionColumn? : Expr → Option ColumnRef
  | .binary left .or right => do
    let column ← disjunctionColumn? left
    if (← disjunctionColumn? right) = column then some column else none
  | .binary left (.compare .eq) right =>
    if isInteger (literal right) then columnRef? left else none
  | _ => none

def isDisjunction : Expr → Bool
  | .binary _ .or _ => true
  | _ => false

-- The comparisons of a conjunction, in order. A disjunction of partition numbers
-- in parentheses holds none.
def comparisons : Expr → Except ShapeDefect (List Comparison)
  | .binary left .and right => return (← comparisons left) ++ (← comparisons right)
  | .nested inner =>
    if isDisjunction inner && (disjunctionColumn? inner).isSome then .ok [] else comparisons inner
  | .binary left (.compare op) right => return [← normalize left op right]
  | e => .error (.unsupportedExpression e.text)

mutual

def leaves : Source → List Relation
  | ⟨relation, joins⟩ => relationLeaves relation ++ joinLeaves joins

def joinLeaves : List Join → List Relation
  | [] => []
  | ⟨_, relation, _⟩ :: rest => relationLeaves relation ++ joinLeaves rest

def relationLeaves : Relation → List Relation
  | ⟨factor, aliased, hints⟩ =>
    match factor with
    | .nested inner => leaves inner
    | other => [⟨other, aliased, hints⟩]

end

def addRelation (shape : Shape) (relation : Relation) : Except ShapeDefect Shape :=
  match relation.factor with
  | .table name _ =>
    let shape := { shape with tables := insertName name.key shape.tables }
    match relation.aliased with
    | some a => .ok { shape with aliases := shape.aliases.insert a.name.value name.key }
    | none => .ok shape
  | .derived _ _ => .error .nestedSubquery
  | _ => .error (.unsupportedRelation relation.text)

def ofSelect (block : Select) : Except ShapeDefect Shape := do
  let shape : Shape := { projection := block.projection.map Item.text }
  let shape ← (block.sources.flatMap leaves).foldlM addRelation shape
  match block.selection with
  | some condition => return { shape with predicates := ← comparisons condition }
  | none => return shape

def ofQuery (q : Query) : Except ShapeDefect Shape :=
  if q.hasSubquery || !q.ctes.isEmpty then .error .nestedSubquery
  else
    match q.body with
    | .select block => ofSelect block
    | .nested _ => .error .nestedSubquery
    | .combined _ op _ _ => .error (.unsupportedExpression op.text)
    | .other parts => .error (.notASelect (partsText parts))

def ofStatement : Statement → Except ShapeDefect Shape
  | .query q => ofQuery q
  | .command kind => .error (.notASelect kind)

end Shape
end TripleTable
