import TripleTable.Sql.Printer
set_option autoImplicit false

/-!
Constraints on partition numbers: one of several numbers, as text and as a condition.
-/
namespace TripleTable.Partition
open Sql

structure Constraint where
  column : Text
  partitions : List Int
deriving DecidableEq, Repr

def disjunction? : List Expr → Option Expr
  | [] => none
  | [term] => some term
  | first :: second :: rest => do
    let terms := first :: second :: rest
    let half := terms.length / 2
    return .binary (← disjunction? (terms.take half)) .or (← disjunction? (terms.drop half))
termination_by terms => terms.length
decreasing_by all_goals simp; omega

namespace Constraint

def text (c : Constraint) : Text :=
  Text.join " or " (c.partitions.map fun p => c.column ++ " = " ++ Text.ofInt p)

def equality (column : Text) (p : Int) : Expr :=
  .binary (.path (Name.ofKey column)) (.compare .eq) (.number (Text.ofInt p) false)

def expr (c : Constraint) : Expr :=
  .nested ((disjunction? (c.partitions.map (equality c.column))).getD (.boolean true))

end Constraint
end TripleTable.Partition
