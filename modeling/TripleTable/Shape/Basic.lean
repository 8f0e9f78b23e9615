import TripleTable.Sql.Syntax
import TripleTable.Text.Double
import TripleTable.Text.Table
set_option autoImplicit false

/-!
What a single SELECT block selects from and how it compares: its tables, their aliases, and
comparisons of columns with values.
-/
namespace TripleTable.Shape
open Sql (ComparisonOp)

structure ColumnRef where
  qualifier : Option Text
  column : Text
deriving DecidableEq, Repr

def ColumnRef.text : ColumnRef → Text
  | ⟨some qualifier, column⟩ => qualifier ++ "." ++ column
  | ⟨none, column⟩ => column

-- What a column is compared with. Another column, a truth value and NULL are identifiers.
inductive Literal where
  | integer (value : Int)
  | float (value : Float)
  | string (value : Text)
  | identifier (text : Text)
deriving Repr

def Literal.text : Literal → Text
  | integer value => Text.ofInt value
  | float value => Text.ofDouble value
  | string value => '\'' :: Text.double '\'' value ++ ['\'']
  | identifier text => text

structure Comparison where
  left : ColumnRef
  op : ComparisonOp
  right : Literal
deriving Repr

def Comparison.text (c : Comparison) : Text :=
  c.left.text ++ " " ++ c.op.text ++ " " ++ c.right.text

end Shape

-- The shape of a SELECT block; tables and aliases are in increasing order.
structure Shape where
  projection : List Text := []
  tables : List Text := []
  aliases : NameTable Text := []
  predicates : List Shape.Comparison := []
deriving Repr

namespace Shape

def owner? (shape : Shape) (c : ColumnRef) : Option Text :=
  match c.qualifier with
  | some qualifier =>
    match shape.aliases.find? qualifier with
    | some table => some table
    | none => if qualifier ∈ shape.tables then some qualifier else none
  | none =>
    match shape.tables with
    | [table] => some table
    | _ => none

def aliasOf? (shape : Shape) (c : ColumnRef) (table : Text) : Option Text :=
  match c.qualifier with
  | some qualifier => if shape.aliases.contains qualifier then some qualifier else none
  | none =>
    match shape.aliases.filter fun row => row.2 = table with
    | [row] => some row.1
    | _ => none

end Shape
end TripleTable
