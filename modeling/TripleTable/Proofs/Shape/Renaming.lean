import TripleTable.Proofs.Shape.Walking
import TripleTable.Proofs.Sql.Renaming
set_option autoImplicit false

/-!
Walking a statement after its tables were renamed: the same relations and comparisons, under the
renamed keys.
-/
namespace TripleTable.Shape
open Sql

mutual
theorem leaves_rename (r : Renaming) (source : Source) :
    leaves (source.rename r) = (leaves source).map (Relation.rename r) := by
  obtain ⟨relation, joins⟩ := source
  simp only [Source.rename, leaves, List.map_append, relation_leaves_rename r relation,
    join_leaves_rename r joins]

theorem join_leaves_rename (r : Renaming) (joins : List Join) :
    joinLeaves (renameJoins r joins) = (joinLeaves joins).map (Relation.rename r) := by
  cases joins with
  | nil => rfl
  | cons join rest =>
    obtain ⟨kind, relation, constraint⟩ := join
    simp only [renameJoins, Join.rename, joinLeaves, List.map_append,
      relation_leaves_rename r relation, join_leaves_rename r rest]

theorem relation_leaves_rename (r : Renaming) (relation : Relation) :
    relationLeaves (relation.rename r) = (relationLeaves relation).map (Relation.rename r) := by
  obtain ⟨factor, aliased, hints⟩ := relation
  cases factor with
  | nested inner => exact leaves_rename r inner
  | _ => rfl
end

theorem sources_leaves_rename (r : Renaming) (sources : List Source) :
    (renameSources r sources).flatMap leaves =
      (sources.flatMap leaves).map (Relation.rename r) := by
  induction sources with
  | nil => rfl
  | cons source rest ih =>
    simp only [renameSources, List.flatMap_cons, List.map_append, leaves_rename, ih]

theorem table_key_rename (r : Renaming) (relation : Relation) :
    tableKey? (relation.rename r) = (tableKey? relation).map r.relationKey := by
  obtain ⟨factor, aliased, hints⟩ := relation
  cases factor with
  | table name arguments => exact congrArg some (r.relation_name_key name)
  | _ => rfl

def ColumnRef.rename (r : Renaming) (c : ColumnRef) : ColumnRef :=
  ⟨c.qualifier.map r.qualifierKey, c.column⟩

theorem column_ref_path (r : Renaming) (names : Name) :
    columnRef? (.path (r.path names)) = (columnRef? (.path names)).map (ColumnRef.rename r) := by
  rcases List.eq_nil_or_concat names with rfl | ⟨front, column, rfl⟩
  · rfl
  · rw [List.concat_eq_append]
    cases front with
    | nil => rfl
    | cons first rest =>
      rw [r.path_qualified]
      have inhabited := r.qualifier_inhabited first rest
      simp only [columnRef?, List.getLast?_concat, List.dropLast_concat, Option.map_some,
        List.isEmpty_iff, inhabited, if_false, List.cons_ne_nil, ColumnRef.rename,
        r.qualifier_key]

theorem column_ref_rename (r : Renaming) : (e : Expr) →
    columnRef? (e.rename r) = (columnRef? e).map (ColumnRef.rename r)
  | .column _ => rfl
  | .path names => column_ref_path r names
  | .nested inner => column_ref_rename r inner
  | .number _ _ | .string _ | .boolean _ | .null | .unary _ _ | .binary _ _ _ | .subquery _
  | .inSubquery _ _ _ | .existsSubquery _ _ | .form _ => rfl

-- A qualifier may be renamed in the values that are compared, but the walk never looks at the
-- text of an identifier there.
def SameValue : Literal → Literal → Prop
  | .identifier _, .identifier _ => True
  | value, other => value = other

theorem same_value_refl (value : Literal) : SameValue value value := by
  cases value <;> trivial

theorem literal_rename (r : Renaming) {e : Expr} {value : Literal} (read : literal e = .ok value) :
    ∃ renamed, literal (e.rename r) = .ok renamed ∧ SameValue value renamed := by
  cases e with
  | nested inner => exact literal_rename r (e := inner) read
  | unary op operand =>
    cases op with
    | plus => exact literal_rename r (e := operand) read
    | minus =>
      cases inner : literal operand with
      | error defect => simp [literal, inner, bind, Except.bind] at read
      | ok number =>
        obtain ⟨renamed, again, same⟩ := literal_rename r inner
        -- A sign stands before numbers only, and numbers are not renamed.
        cases number <;> cases renamed <;> cases same <;>
          simp_all [literal, Expr.rename, bind, Except.bind, pure, Except.pure, same_value_refl]
    | not => cases read
  | path names =>
    cases read
    exact ⟨_, rfl, trivial⟩
  | subquery q => cases read
  | inSubquery operand negated q => cases read
  | existsSubquery negated q => cases read
  | binary left op right => cases read
  | form parts => cases read
  | _ => exact ⟨value, read, same_value_refl value⟩

theorem is_integer_rename (r : Renaming) {e : Expr} (integer : isInteger (literal e)) :
    isInteger (literal (e.rename r)) := by
  obtain ⟨n, read⟩ := is_integer_value integer
  obtain ⟨renamed, again, same⟩ := literal_rename r read
  cases renamed <;> cases same
  rw [again]
  rfl

theorem disjunction_column_rename (r : Renaming) {e : Expr} {column : ColumnRef}
    (found : disjunctionColumn? e = some column) :
    disjunctionColumn? (e.rename r) = some (column.rename r) := by
  cases e with
  | binary left op right =>
    cases op with
    | or =>
      obtain ⟨here, there⟩ := disjunction_column_or.mp found
      exact disjunction_column_or.mpr
        ⟨disjunction_column_rename r here, disjunction_column_rename r there⟩
    | compare op =>
      cases op with
      | eq =>
        by_cases integer : isInteger (literal right)
        · simp only [disjunctionColumn?, if_pos integer] at found
          simp only [Expr.rename, disjunctionColumn?, if_pos (is_integer_rename r integer),
            column_ref_rename, found, Option.map_some]
        · simp only [disjunctionColumn?, if_neg integer] at found
          cases found
      | _ => cases found
    | _ => cases found
  | _ => cases found

theorem is_disjunction_rename (r : Renaming) (e : Expr) :
    isDisjunction (e.rename r) = isDisjunction e := by
  cases e with
  | binary left op right => cases op <;> rfl
  | _ => rfl

theorem normalize_rename (r : Renaming) {left right : Expr} {op : ComparisonOp} {c : Comparison}
    (read : normalize left op right = .ok c) :
    ∃ renamed, normalize (left.rename r) op (right.rename r) = .ok renamed := by
  unfold normalize at read ⊢
  rw [column_ref_rename, column_ref_rename]
  cases here : columnRef? left with
  | some column =>
    cases value : literal right with
    | error defect => simp [here, value, bind, Except.bind] at read
    | ok number =>
      obtain ⟨renamed, again, -⟩ := literal_rename r value
      exact ⟨_, by simp only [Option.map_some, again]; rfl⟩
  | none =>
    cases there : columnRef? right with
    | some column =>
      cases value : literal left with
      | error defect => simp [here, there, value, bind, Except.bind] at read
      | ok number =>
        obtain ⟨renamed, again, -⟩ := literal_rename r value
        exact ⟨_, by simp only [Option.map_none, Option.map_some, again]; rfl⟩
    | none =>
      rw [here, there] at read
      cases read

theorem comparisons_rename (r : Renaming) {e : Expr} {list : List Comparison}
    (read : comparisons e = .ok list) : ∃ renamed, comparisons (e.rename r) = .ok renamed := by
  cases e with
  | nested inner =>
    rw [comparisons] at read
    rw [Expr.rename, comparisons, is_disjunction_rename]
    by_cases emitted : isDisjunction inner && (disjunctionColumn? inner).isSome
    · obtain ⟨disjunction, some_column⟩ := Bool.and_eq_true_iff.mp emitted
      obtain ⟨column, found⟩ := Option.isSome_iff_exists.mp some_column
      rw [disjunction, disjunction_column_rename r found]
      exact ⟨[], rfl⟩
    · rw [if_neg emitted] at read
      obtain ⟨renamed, again⟩ := comparisons_rename r read
      split
      · exact ⟨[], rfl⟩
      · exact ⟨renamed, again⟩
  | binary left op right =>
    cases op with
    | and =>
      obtain ⟨first, second, here, there, -⟩ := comparisons_and.mp read
      obtain ⟨front, before⟩ := comparisons_rename r here
      obtain ⟨back, behind⟩ := comparisons_rename r there
      exact ⟨front ++ back, comparisons_and.mpr ⟨front, back, before, behind, rfl⟩⟩
    | compare op =>
      obtain ⟨c, normal, -⟩ := comparisons_compare.mp read
      obtain ⟨renamed, again⟩ := normalize_rename r normal
      exact ⟨[renamed], comparisons_compare.mpr ⟨renamed, again, rfl⟩⟩
    | _ => cases read
  | _ => cases read

def renamedBlock (r : Renaming) (block : Select) : Select :=
  { block.rename r with projection := (block.rename r).projection.map (Item.renameWildcard r) }

theorem rename_tables_body (r : Renaming) {q : Query} {block : Select}
    (body : q.body = .select block) : (q.renameTables r).body = .select (renamedBlock r block) := by
  obtain ⟨ctes, qbody, tail⟩ := q
  simp only at body
  subst body
  simp only [Query.renameTables, Query.rename, Body.rename, Body.renameWildcards, renamedBlock]

theorem rename_tables_ctes (r : Renaming) {q : Query} (ctes : q.ctes = []) :
    (q.renameTables r).ctes = [] := by
  obtain ⟨qctes, body, tail⟩ := q
  simp only at ctes
  subst ctes
  simp only [Query.renameTables, Query.rename, renameParts]

theorem renamed_block_leaves (r : Renaming) (block : Select) :
    (renamedBlock r block).sources.flatMap leaves =
      (block.sources.flatMap leaves).map (Relation.rename r) := by
  obtain ⟨head, projection, target, sources, views, selection, tail⟩ := block
  simp only [renamedBlock, Select.rename, sources_leaves_rename]

theorem renamed_block_selected (r : Renaming) {block : Select} {list : List Comparison}
    (read : selected block.selection = .ok list) :
    ∃ renamed, selected (renamedBlock r block).selection = .ok renamed := by
  obtain ⟨head, projection, target, sources, views, selection, tail⟩ := block
  cases selection with
  | none =>
    simp only [renamedBlock, Select.rename, renameSelection, selected]
    exact ⟨[], rfl⟩
  | some condition =>
    simp only [renamedBlock, Select.rename, renameSelection, selected]
    exact comparisons_rename r read

theorem renamed_block_walked (r : Renaming) {block : Select} {shape : Shape}
    (walked : ofSelect block = .ok shape) :
    ∃ next, ofSelect (renamedBlock r block) = .ok next ∧
      ∀ key, key ∈ next.tables ↔ ∃ old ∈ shape.tables, r.relationKey old = key := by
  obtain ⟨relations, list, read, -⟩ := of_select.mp walked
  obtain ⟨renamed, read_renamed⟩ := renamed_block_selected r read
  have leaves_renamed := renamed_block_leaves r block
  have all_tables : ∀ relation ∈ (renamedBlock r block).sources.flatMap leaves,
      (tableKey? relation).isSome := by
    rw [leaves_renamed]
    refine List.forall_mem_map.mpr fun relation member => ?_
    rw [table_key_rename, Option.isSome_map]
    exact relations relation member
  obtain ⟨next, accepted⟩ : ∃ next, ofSelect (renamedBlock r block) = .ok next :=
    ⟨_, of_select.mpr ⟨all_tables, renamed, read_renamed, rfl⟩⟩
  refine ⟨next, accepted, fun key => ?_⟩
  rw [of_select_tables accepted, leaves_renamed]
  constructor
  · rintro ⟨other, member, named⟩
    obtain ⟨relation, among, rfl⟩ := List.mem_map.mp member
    rw [table_key_rename] at named
    obtain ⟨old, old_key, same⟩ := Option.map_eq_some_iff.mp named
    exact ⟨old, (of_select_tables walked old).mpr ⟨relation, among, old_key⟩, same⟩
  · rintro ⟨old, table, same⟩
    obtain ⟨relation, among, old_key⟩ := (of_select_tables walked old).mp table
    refine ⟨relation.rename r, List.mem_map_of_mem among, ?_⟩
    rw [table_key_rename, old_key, Option.map_some, same]

end TripleTable.Shape
