import TripleTable.Proofs.Shape.Renaming
set_option autoImplicit false

/-!
Conditions that differ only in how their chains of AND and OR are grouped: a printed chain is read
back grouped to the left. The walk does not see the difference.
-/
namespace TripleTable.Shape
open Sql

def IsConnective (op : BinaryOp) : Prop := op = .and ∨ op = .or

-- The second expression is the first with some chains grouped further to the left. The text of
-- a condition does not show the grouping, and the parser takes chains from the left.
inductive Regrouped : Expr → Expr → Prop
  | refl (e : Expr) : Regrouped e e
  | nested {inner other : Expr} : Regrouped inner other → Regrouped (.nested inner) (.nested other)
  | connective {op : BinaryOp} {left left' right right' : Expr} : IsConnective op →
      Regrouped left left' → Regrouped right right' →
      Regrouped (.binary left op right) (.binary left' op right')
  | rotate {op : BinaryOp} (a b c : Expr) : IsConnective op →
      Regrouped (.binary a op (.binary b op c)) (.binary (.binary a op b) op c)
  | trans {first second third : Expr} : Regrouped first second → Regrouped second third →
      Regrouped first third

def QueryRegrouped (q other : Query) : Prop :=
  q = other ∨ ∃ block condition grouped, q.body = .select block ∧
    block.selection = some condition ∧ Regrouped condition grouped ∧
    other = { q with body := .select { block with selection := some grouped } }

theorem regrouped_subquery {e other : Expr} (same : Regrouped e other) :
    other.hasSubquery = e.hasSubquery := by
  induction same with
  | refl e => rfl
  | nested _ ih => exact ih
  | connective _ _ _ left right => simp only [Expr.hasSubquery, left, right]
  | rotate a b c _ => simp only [Expr.hasSubquery, Bool.or_assoc]
  | trans _ _ first second => exact second.trans first

theorem regrouped_is_disjunction {e other : Expr} (same : Regrouped e other) :
    isDisjunction other = isDisjunction e := by
  induction same with
  | connective connective _ _ _ _ => rcases connective with rfl | rfl <;> rfl
  | rotate a b c connective => rcases connective with rfl | rfl <;> rfl
  | trans _ _ first second => exact second.trans first
  | _ => rfl

theorem regrouped_disjunction_column {e other : Expr} (same : Regrouped e other)
    (column : ColumnRef) :
    disjunctionColumn? other = some column ↔ disjunctionColumn? e = some column := by
  induction same with
  | connective connective _ _ left right =>
    rcases connective with rfl | rfl
    · exact Iff.rfl
    · rw [disjunction_column_or, disjunction_column_or, left, right]
  | rotate a b c connective =>
    rcases connective with rfl | rfl
    · exact Iff.rfl
    · simp only [disjunction_column_or, and_assoc]
  | trans _ _ first second => exact second.trans first
  | _ => exact Iff.rfl

theorem regrouped_comparisons {e other : Expr} (same : Regrouped e other) :
    ∀ list, comparisons e = .ok list → comparisons other = .ok list := by
  induction same with
  | refl e => exact fun _ read => read
  | trans _ _ first second => exact fun list read => second list (first list read)
  | @nested inner other same ih =>
    intro list read
    have column := Option.ext (regrouped_disjunction_column same)
    rw [comparisons] at read ⊢
    rw [regrouped_is_disjunction same, column]
    by_cases emitted : isDisjunction inner && (disjunctionColumn? inner).isSome
    · rw [if_pos emitted] at read ⊢
      exact read
    · rw [if_neg emitted] at read ⊢
      exact ih list read
  | connective connective _ _ left right =>
    intro list read
    rcases connective with rfl | rfl
    · obtain ⟨first, second, here, there, joined⟩ := comparisons_and.mp read
      exact comparisons_and.mpr ⟨first, second, left first here, right second there, joined⟩
    · cases read
  | rotate a b c connective =>
    intro list read
    rcases connective with rfl | rfl
    · obtain ⟨first, rest, here, there, rfl⟩ := comparisons_and.mp read
      obtain ⟨second, third, middle, last, rfl⟩ := comparisons_and.mp there
      refine comparisons_and.mpr ⟨first ++ second, third, ?_, last, (List.append_assoc ..).symm⟩
      exact comparisons_and.mpr ⟨first, second, here, middle, rfl⟩
    · cases read

theorem regrouped_of_query {q other : Query} {shape : Shape} (same : QueryRegrouped q other)
    (walked : ofQuery q = .ok shape) : ofQuery other = .ok shape := by
  rcases same with rfl | ⟨block, condition, grouped, body, selection, same, rfl⟩
  · exact walked
  · obtain ⟨subquery, ctes, block', body', walked⟩ := of_query.mp walked
    obtain rfl : block = block' := Body.select.inj (body.symm.trans body')
    obtain ⟨tables, list, read, rfl⟩ := of_select.mp walked
    rw [selection] at read
    refine of_query.mpr ⟨?_, ctes, _, rfl, of_select.mpr ⟨tables, list, ?_, rfl⟩⟩
    · obtain ⟨qctes, qbody, qtail⟩ := q
      obtain ⟨head, projection, target, sources, views, old, tail⟩ := block
      simp only at body selection
      subst body selection
      simpa only [Query.hasSubquery, Body.hasSubquery, Select.hasSubquery, selectionHasSubquery,
        regrouped_subquery same] using subquery
    · exact regrouped_comparisons same list read

end TripleTable.Shape
