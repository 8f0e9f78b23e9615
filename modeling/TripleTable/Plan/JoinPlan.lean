import TripleTable.Pattern.Triple
set_option autoImplicit false

/-!
Join plans: one numbered table for each triple, the equalities between their columns, the columns
that are compared with a constant, and the column each variable is first bound to.
-/
namespace TripleTable.Plan

inductive Role where
  | subject
  | object
deriving DecidableEq, Repr

namespace Role

def letter : Role → Char
  | subject => 's'
  | object => 'o'

def opposite : Role → Role
  | subject => object
  | object => subject

end Role

structure Column where
  index : Nat
  role : Role
deriving DecidableEq, Repr

def aliasName (index : Nat) : Text := 't' :: Text.ofNat index

def Column.text (c : Column) : Text := aliasName c.index ++ ['.', c.role.letter]

-- The first binding of each variable, in the order in which variables were bound.
abbrev Bindings := List (Text × Column)

namespace Bindings

def get? (b : Bindings) (name : Text) : Option Column := b.lookup name

def bind (b : Bindings) (name : Text) (column : Column) : (Column × Bool) × Bindings :=
  match b.get? name with
  | some bound => ((bound, false), b)
  | none => ((column, true), b ++ [(name, column)])

end Bindings

structure Condition where
  left : Column
  right : Column
deriving DecidableEq, Repr

def Condition.text (c : Condition) : Text := c.left.text ++ " = " ++ c.right.text

structure Entry where
  table : Text
  index : Nat
  join : Option Condition
  extra : List Condition
deriving DecidableEq, Repr

structure ConstantFilter where
  column : Column
  literal : Text
deriving DecidableEq, Repr

def ConstantFilter.text (f : ConstantFilter) : Text :=
  f.column.text ++ " = '" ++ Text.double '\'' f.literal ++ "'"

structure JoinPlan where
  entries : List Entry := []
  filters : List ConstantFilter := []
  bindings : Bindings := []
deriving DecidableEq, Repr

def JoinPlan.joinCount (p : JoinPlan) : Nat := p.entries.countP fun entry => entry.join.isSome

end TripleTable.Plan
