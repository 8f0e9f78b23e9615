import TripleTable.Partition.Constraint
import TripleTable.Partition.Metadata
import TripleTable.Shape.Basic
set_option autoImplicit false

/-!
The partitions that rows satisfying a comparison lie in. Partitions are numbered from zero, so a
bound from above leaves finitely many; a bound from below does not and is refused.
-/
namespace TripleTable.Partition
open Shape (Literal Comparison)

def maxPartitions : Int := 128

def maxInteger : Int := 0x7fffffffffffffff

inductive ExpansionError where
  | invalidFloor (column : Text) (floor : Int)
  | unsupportedLiteral (column literal : Text)
  | unsupportedOperator (column operator : Text)
  | rangeTooLarge (column : Text) (partitions limit : Int)
deriving DecidableEq, Repr

def ExpansionError.message : ExpansionError → Text
  | invalidFloor column floor =>
    "Invalid floor parameter " ++ Text.ofInt floor ++ " for partitioned column " ++ column
  | unsupportedLiteral column literal =>
    "Unsupported literal type for partitioned column " ++ column ++ ": " ++ literal
  | unsupportedOperator column operator =>
    "Unsupported operator '" ++ operator ++ "' for partitioned column " ++ column
  | rangeTooLarge column partitions limit =>
    "Range on partitioned column " ++ column ++ " spans " ++ Text.ofInt partitions ++
      " partitions, more than " ++ Text.ofInt limit

-- Numbers beyond the integers count as the nearest integer.
def partitionOf? (floor : Int) : Literal → Option Int
  | .integer value => some (value / floor)
  | .float value => some ((value / (Int64.ofInt floor).toFloat).floor.toInt64.toInt)
  | .string _ => none
  | .identifier _ => none

def below (column : Text) (bound : Int) : Except ExpansionError (List Int) :=
  if maxPartitions < bound then .error (.rangeTooLarge column bound maxPartitions)
  else .ok ((List.range bound.toNat).map Int.ofNat)

-- A strict bound keeps the partitions that lie below it entirely.
def partitions (c : Comparison) (k : Int) : Except ExpansionError (List Int) :=
  match c.op with
  | .eq => .ok [k]
  | .lt => below c.left.text k
  | .le => below c.left.text (min (k + 1) maxInteger)
  | op => .error (.unsupportedOperator c.left.text op.text)

def expand (c : Comparison) (a : Attribute) (qualifier : Text) :
    Except ExpansionError (Option Constraint) :=
  if a.floor ≤ 0 then .error (.invalidFloor c.left.text a.floor)
  else
    match partitionOf? a.floor c.right with
    | none => .error (.unsupportedLiteral c.left.text c.right.text)
    | some k => do
      match ← partitions c k with
      | [] => return none
      | numbers => return some ⟨qualifier ++ "." ++ a.targetColumn, numbers⟩

end TripleTable.Partition
