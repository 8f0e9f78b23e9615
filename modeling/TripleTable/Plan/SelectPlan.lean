import TripleTable.Plan.Projection
set_option autoImplicit false

/-!
Select plans: a join plan and a projection, arranged as the clauses of one SELECT statement, and
the text of that statement.
-/
namespace TripleTable.Plan

structure NumberedTable where
  table : Text
  index : Nat
deriving DecidableEq, Repr

-- A joined table with its conditions; the first is the one it was placed by.
structure Join where
  source : NumberedTable
  on : List Condition
deriving DecidableEq, Repr

inductive Filter where
  | columns (condition : Condition)
  | constant (filter : ConstantFilter)
deriving DecidableEq, Repr

structure SelectPlan where
  distinct : Bool
  items : List ProjectionItem
  source : NumberedTable
  joins : List Join
  filters : List Filter
deriving DecidableEq, Repr

inductive RenderError where
  | missingTable
  | missingItems
  | missingJoinCondition (index : Nat)
deriving DecidableEq, Repr

def RenderError.message : RenderError → Text
  | missingTable => "No From Table."
  | missingItems => "No Select items."
  | missingJoinCondition index =>
    "Join entry " ++ aliasName index ++ " has no join condition."

structure QueryPlan where
  distinct : Bool
  projection : List ProjectionItem
  joinPlan : JoinPlan
deriving DecidableEq, Repr

def Join.ofEntry (entry : Entry) : Except RenderError Join :=
  match entry.join with
  | some condition => .ok ⟨⟨entry.table, entry.index⟩, condition :: entry.extra⟩
  | none => .error (.missingJoinCondition entry.index)

def SelectPlan.ofQueryPlan (q : QueryPlan) : Except RenderError SelectPlan :=
  if q.projection = [] then .error .missingItems
  else
    match q.joinPlan.entries with
    | [] => .error .missingTable
    | root :: rest => do
      let joins ← rest.mapM Join.ofEntry
      return {
        distinct := q.distinct
        items := q.projection
        source := ⟨root.table, root.index⟩
        joins := joins
        filters := root.extra.map .columns ++ q.joinPlan.filters.map .constant }

def Filter.text : Filter → Text
  | columns condition => condition.text
  | constant filter => filter.text

def NumberedTable.text (t : NumberedTable) : Text := t.table ++ ' ' :: aliasName t.index

def Join.text (j : Join) : Text :=
  " join " ++ j.source.text ++ " on " ++ Text.join " and " (j.on.map Condition.text)

namespace SelectPlan

def selectText (p : SelectPlan) : Text :=
  (if p.distinct then ("select distinct " : Text) else "select ") ++
    Text.join ", " (p.items.map fun item => item.column.text)

def fromText (p : SelectPlan) : Text := " from " ++ p.source.text

def joinsText (p : SelectPlan) : Text := p.joins.flatMap Join.text

def filtersText (p : SelectPlan) : Text :=
  if p.filters = [] then [] else " where " ++ Text.join " and " (p.filters.map Filter.text)

def text (p : SelectPlan) : Text := p.selectText ++ p.fromText ++ p.joinsText ++ p.filtersText

end SelectPlan
end TripleTable.Plan
