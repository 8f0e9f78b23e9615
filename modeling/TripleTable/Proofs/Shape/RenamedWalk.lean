import TripleTable.Proofs.Shape.Renaming
set_option autoImplicit false

/-!
The shape of a statement whose tables were renamed: the images of its tables, its aliases on the
images of theirs, and its comparisons with the qualifiers on both sides replaced.
-/
namespace TripleTable

def Sql.Statement.renameTables (r : Sql.Renaming) : Sql.Statement → Sql.Statement
  | .query q => .query (q.renameTables r)
  | .command kind => .command kind

namespace Shape
open Sql

-- What stands opposite the column of a comparison. The shape keeps only the text of another
-- column there, in which its qualifier cannot be told from a name that holds a dot.
inductive Operand where
  | reference (qualifier : Name) (column : Ident)
  | value (literal : Literal)

structure OperandComparison where
  left : ColumnRef
  op : ComparisonOp
  right : Operand

def Operand.literal : Operand → Literal
  | reference qualifier column => .identifier (Name.text (qualifier ++ [column]))
  | value literal => literal

def OperandComparison.comparison (c : OperandComparison) : Comparison :=
  ⟨c.left, c.op, c.right.literal⟩

-- A qualifier that is an alias, or no table with a target, stays as it is written.
def Operand.rename (r : Renaming) : Operand → Operand
  | reference [] column => reference [] column
  | reference qualifier column =>
    if r.aliases.contains qualifier.key then reference qualifier column
    else
      match r.targets.find? qualifier.key with
      | some target => reference (Name.ofKey target) column
      | none => reference qualifier column
  | value literal => value literal

def OperandComparison.rename (r : Renaming) (c : OperandComparison) : OperandComparison :=
  ⟨c.left.rename r, c.op, c.right.rename r⟩

def operand : Expr → Except ShapeDefect Operand
  | .path names =>
    match names.getLast? with
    | some column => .ok (.reference names.dropLast column)
    | none => .ok (.value (.identifier names.text))
  | .unary .plus inner => operand inner
  | .nested inner => operand inner
  | e => (literal e).map .value

def operandComparison (left : Expr) (op : ComparisonOp) (right : Expr) :
    Except ShapeDefect OperandComparison :=
  match columnRef? left with
  | some column => return ⟨column, op, ← operand right⟩
  | none =>
    match columnRef? right with
    | some column => return ⟨column, op.mirrored, ← operand left⟩
    | none => throw (.unsupportedExpression (Expr.binary left (.compare op) right).text)

def operandComparisons : Expr → Except ShapeDefect (List OperandComparison)
  | .binary left .and right => return (← operandComparisons left) ++ (← operandComparisons right)
  | .nested inner =>
    if isDisjunction inner && (disjunctionColumn? inner).isSome then .ok []
    else operandComparisons inner
  | .binary left (.compare op) right => return [← operandComparison left op right]
  | e => .error (.unsupportedExpression e.text)

def selectedOperands : Option Expr → Except ShapeDefect (List OperandComparison)
  | some condition => operandComparisons condition
  | none => .ok []

def statementOperands : Statement → Except ShapeDefect (List OperandComparison)
  | .query ⟨_, .select block, _⟩ => selectedOperands block.selection
  | _ => .ok []

theorem literal_operand (e : Expr) : literal e = (operand e).map Operand.literal := by
  have read_as_value : ∀ read : Except ShapeDefect Literal,
      read = (read.map Operand.value).map Operand.literal := by
    intro read
    cases read <;> rfl
  cases e with
  | path names =>
    rcases List.eq_nil_or_concat names with rfl | ⟨front, column, rfl⟩
    · rfl
    · simp [literal, operand, Except.map, Operand.literal]
  | nested inner => exact literal_operand inner
  | unary op inner =>
    cases op with
    | plus => exact literal_operand inner
    | _ => exact read_as_value _
  | _ => exact read_as_value _

theorem normalize_operands (left : Expr) (op : ComparisonOp) (right : Expr) :
    normalize left op right =
      (operandComparison left op right).map OperandComparison.comparison := by
  unfold normalize operandComparison
  cases columnRef? left with
  | some column =>
    simp only [literal_operand]
    cases operand right <;> rfl
  | none =>
    cases columnRef? right with
    | some column =>
      simp only [literal_operand]
      cases operand left <;> rfl
    | none => rfl

theorem comparisons_operands (e : Expr) :
    comparisons e =
      (operandComparisons e).map (List.map OperandComparison.comparison) := by
  cases e with
  | nested inner =>
    rw [comparisons, operandComparisons]
    by_cases emitted : isDisjunction inner && (disjunctionColumn? inner).isSome
    · rw [if_pos emitted, if_pos emitted]
      rfl
    · rw [if_neg emitted, if_neg emitted]
      exact comparisons_operands inner
  | binary left op right =>
    cases op with
    | and =>
      rw [comparisons, operandComparisons, comparisons_operands left, comparisons_operands right]
      cases operandComparisons left with
      | error defect => rfl
      | ok first =>
        cases operandComparisons right with
        | error defect => rfl
        | ok second => exact congrArg Except.ok List.map_append.symm
    | compare op =>
      rw [comparisons, operandComparisons, normalize_operands]
      cases operandComparison left op right <;> rfl
    | _ => rfl
  | _ => rfl

theorem operand_comparisons_and {left right : Expr} {list : List OperandComparison} :
    operandComparisons (.binary left .and right) = .ok list ↔
      ∃ first second, operandComparisons left = .ok first ∧
        operandComparisons right = .ok second ∧ list = first ++ second := by
  rw [operandComparisons]
  cases operandComparisons left with
  | error defect => simp [bind, Except.bind]
  | ok first =>
    cases operandComparisons right with
    | error defect => simp [bind, Except.bind]
    | ok second => simp [bind, Except.bind, pure, Except.pure, eq_comm]

theorem operand_comparisons_compare {left right : Expr} {op : ComparisonOp}
    {list : List OperandComparison} :
    operandComparisons (.binary left (.compare op) right) = .ok list ↔
      ∃ c, operandComparison left op right = .ok c ∧ list = [c] := by
  rw [operandComparisons]
  cases operandComparison left op right with
  | error defect => simp [bind, Except.bind]
  | ok c => simp [bind, Except.bind, pure, Except.pure, eq_comm]

theorem operand_path (r : Renaming) (names : Name) (o : Operand)
    (read : operand (.path names) = .ok o) : operand (.path (r.path names)) = .ok (o.rename r) := by
  rcases List.eq_nil_or_concat names with rfl | ⟨front, column, rfl⟩
  · cases read
    rfl
  · rw [List.concat_eq_append] at read ⊢
    cases front with
    | nil =>
      cases read
      rfl
    | cons first rest =>
      rw [operand, List.getLast?_concat, List.dropLast_concat] at read
      cases read
      rw [r.path_qualified, operand, List.getLast?_concat, List.dropLast_concat]
      unfold Renaming.qualifier Renaming.relationName
      by_cases hidden : r.aliases.contains (Name.key (first :: rest))
      · simp only [Operand.rename, if_pos hidden]
      · simp only [Operand.rename, if_neg hidden]
        cases r.targets.find? (Name.key (first :: rest)) <;> rfl

-- What stands behind a minus sign is a number, and numbers are not renamed.
theorem negative_rename (r : Renaming) {inner : Expr} {value : Literal}
    (read : literal (.unary .minus inner) = .ok value) :
    literal (.unary .minus (inner.rename r)) = .ok value := by
  obtain ⟨renamed, again, same⟩ := literal_rename r read
  have not_identifier : ∀ text, value ≠ .identifier text := by
    rintro text rfl
    cases signed : literal inner with
    | error defect => simp [literal, signed, bind, Except.bind] at read
    | ok number =>
      cases number <;> simp [literal, signed, bind, Except.bind, pure, Except.pure] at read
  have equal : renamed = value := by
    cases value with
    | identifier text => exact absurd rfl (not_identifier text)
    | _ =>
      cases renamed <;> cases same
      rfl
  rw [← equal]
  exact again

theorem operand_rename (r : Renaming) {e : Expr} {o : Operand} (read : operand e = .ok o) :
    operand (e.rename r) = .ok (o.rename r) := by
  have of_value : ∀ {found again : Except ShapeDefect Literal},
      (∀ value, found = .ok value → again = .ok value) → found.map Operand.value = .ok o →
        again.map Operand.value = .ok (o.rename r) := by
    intro found again same read
    cases found with
    | error defect => cases read
    | ok value =>
      cases read
      rw [same value rfl]
      rfl
  cases e with
  | path names => exact operand_path r names o read
  | nested inner => exact operand_rename r (e := inner) read
  | unary op inner =>
    cases op with
    | plus => exact operand_rename r (e := inner) read
    | minus => exact of_value (fun _ => negative_rename r) read
    | not => cases read
  | number digits long => exact of_value (fun _ same => same) read
  | column name => exact of_value (fun _ same => same) read
  | string value => exact of_value (fun _ same => same) read
  | boolean value => exact of_value (fun _ same => same) read
  | null => exact of_value (fun _ same => same) read
  | _ => cases read

theorem operand_comparison_rename (r : Renaming) {left right : Expr} {op : ComparisonOp}
    {c : OperandComparison} (read : operandComparison left op right = .ok c) :
    operandComparison (left.rename r) op (right.rename r) = .ok (c.rename r) := by
  unfold operandComparison at read ⊢
  rw [column_ref_rename, column_ref_rename]
  cases here : columnRef? left with
  | some column =>
    cases value : operand right with
    | error defect => simp [here, value, bind, Except.bind] at read
    | ok o =>
      simp only [here, value, bind, Except.bind, pure, Except.pure, Except.ok.injEq] at read
      subst read
      simp only [Option.map_some, operand_rename r value]
      rfl
  | none =>
    cases there : columnRef? right with
    | some column =>
      cases value : operand left with
      | error defect => simp [here, there, value, bind, Except.bind] at read
      | ok o =>
        simp only [here, there, value, bind, Except.bind, pure, Except.pure,
          Except.ok.injEq] at read
        subst read
        simp only [Option.map_none, Option.map_some, operand_rename r value]
        rfl
    | none =>
      rw [here, there] at read
      cases read

theorem operand_comparisons_rename (r : Renaming) {e : Expr} {list : List OperandComparison}
    (read : operandComparisons e = .ok list) :
    operandComparisons (e.rename r) = .ok (list.map (OperandComparison.rename r)) := by
  cases e with
  | nested inner =>
    rw [operandComparisons] at read
    rw [Expr.rename, operandComparisons, is_disjunction_rename]
    cases disjunction : isDisjunction inner with
    | false =>
      rw [disjunction] at read
      exact operand_comparisons_rename r read
    | true =>
      cases found : disjunctionColumn? inner with
      | some column =>
        rw [disjunction, found] at read
        cases read
        rw [disjunction_column_rename r found]
        rfl
      | none =>
        -- A disjunction over several columns holds no comparisons, so it was not accepted.
        rw [disjunction, found] at read
        cases inner with
        | binary left op right =>
          cases op with
          | or => cases read
          | _ => cases disjunction
        | _ => cases disjunction
  | binary left op right =>
    cases op with
    | and =>
      obtain ⟨first, second, here, there, rfl⟩ := operand_comparisons_and.mp read
      rw [List.map_append]
      exact operand_comparisons_and.mpr
        ⟨_, _, operand_comparisons_rename r here, operand_comparisons_rename r there, rfl⟩
    | compare op =>
      obtain ⟨c, compared, rfl⟩ := operand_comparisons_compare.mp read
      exact operand_comparisons_compare.mpr ⟨_, operand_comparison_rename r compared, rfl⟩
    | _ => cases read
  | _ => cases read

-- Renaming leaves the alias of a relation where it is, so it is entered with the renamed table.
theorem entered_aliases_rename (r : Renaming) (relations : List Relation) {shape renamed : Shape}
    (same : renamed.aliases = shape.aliases.map fun row => (row.1, r.relationKey row.2)) :
    ((relations.map (Relation.rename r)).foldl enter renamed).aliases =
      (relations.foldl enter shape).aliases.map fun row => (row.1, r.relationKey row.2) := by
  induction relations generalizing shape renamed with
  | nil => exact same
  | cons relation rest ih =>
    obtain ⟨factor, aliased, hints⟩ := relation
    rw [List.map_cons, List.foldl_cons, List.foldl_cons]
    apply ih
    cases factor with
    | table name arguments =>
      cases aliased with
      | none => exact same
      | some a =>
        simp only [Relation.rename, Factor.rename, enter, same, r.relation_name_key]
        exact NameTable.insert_map shape.aliases r.relationKey a.name.value name.key
    | _ => exact same

theorem renamed_block_operands (r : Renaming) {block : Select} {list : List OperandComparison}
    (read : selectedOperands block.selection = .ok list) :
    selectedOperands (renamedBlock r block).selection =
      .ok (list.map (OperandComparison.rename r)) := by
  obtain ⟨head, projection, target, sources, views, selection, tail⟩ := block
  simp only [renamedBlock, Select.rename]
  cases selection with
  | none =>
    cases read
    rfl
  | some condition => exact operand_comparisons_rename r read

theorem selected_operands (selection : Option Expr) :
    selected selection =
      (selectedOperands selection).map (List.map OperandComparison.comparison) := by
  cases selection with
  | none => rfl
  | some condition => exact comparisons_operands condition

theorem renamed_block_shape (r : Renaming) {block : Select} {shape : Shape}
    (walked : ofSelect block = .ok shape) :
    ∃ next list, ofSelect (renamedBlock r block) = .ok next ∧
      next.tables.Pairwise (· < ·) ∧
      (∀ key, key ∈ next.tables ↔ ∃ table ∈ shape.tables, r.relationKey table = key) ∧
      next.aliases = shape.aliases.map (fun row => (row.1, r.relationKey row.2)) ∧
      selectedOperands block.selection = .ok list ∧
      shape.predicates = list.map OperandComparison.comparison ∧
      next.predicates = list.map fun c => (c.rename r).comparison := by
  obtain ⟨next, accepted, tables⟩ := renamed_block_walked r walked
  obtain ⟨-, first, read, rfl⟩ := of_select.mp walked
  obtain ⟨-, second, again, rfl⟩ := of_select.mp accepted
  rw [selected_operands] at read again
  cases operands : selectedOperands block.selection with
  | error defect =>
    rw [operands] at read
    cases read
  | ok list =>
    rw [operands] at read
    rw [renamed_block_operands r operands] at again
    refine ⟨_, list, accepted, ?_, tables, ?_, rfl, ?_, ?_⟩
    · exact entered_increasing _ List.Pairwise.nil
    · simp only [entered, renamed_block_leaves]
      exact entered_aliases_rename r _ rfl
    · exact (Except.ok.inj read).symm
    · rw [← Except.ok.inj again, List.map_map]
      rfl

-- The walk of a renamed statement sees what renaming makes of the shape: each name is looked up
-- once, so targets that are tables themselves may be exchanged or chained.
theorem renamed_statement_shape {statement : Statement} {shape : Shape}
    (walked : ofStatement statement = .ok shape) (renames : NameTable Text) :
    ∃ next list, ofStatement (statement.renameTables ⟨renames, shape.aliases⟩) = .ok next ∧
      next.tables.Pairwise (· < ·) ∧
      (∀ key, key ∈ next.tables ↔
        ∃ table ∈ shape.tables, (renames.find? table).getD table = key) ∧
      next.aliases =
        shape.aliases.map (fun row => (row.1, (renames.find? row.2).getD row.2)) ∧
      statementOperands statement = .ok list ∧
      shape.predicates = list.map OperandComparison.comparison ∧
      next.predicates = list.map fun c => (c.rename ⟨renames, shape.aliases⟩).comparison := by
  cases statement with
  | command kind => cases walked
  | query q =>
    obtain ⟨subquery, ctes, block, body, shown⟩ := of_query.mp walked
    let r : Renaming := ⟨renames, shape.aliases⟩
    obtain ⟨next, list, accepted, rest⟩ := renamed_block_shape r shown
    refine ⟨next, list, ?_, ?_⟩
    · exact of_query.mpr ⟨(rename_tables_subquery r q).trans subquery, rename_tables_ctes r ctes,
        _, rename_tables_body r body, accepted⟩
    · obtain ⟨qctes, qbody, tail⟩ := q
      cases body
      exact rest

-- Two joined tables inside parentheses that take each other's names, and a third behind an alias.
def exchanged : Statement :=
  let a : Ident := ⟨['a'], none⟩
  let b : Ident := ⟨['b'], none⟩
  let c : Ident := ⟨['c'], none⟩
  let n : Ident := ⟨['n'], none⟩
  let inner : Source := ⟨⟨.table [a] [], none, []⟩, [⟨" JOIN ", ⟨.table [b] [], none, []⟩, []⟩]⟩
  .query ⟨[], .select {
    head := []
    projection := []
    target := []
    sources := [⟨⟨.nested inner, none, []⟩, [⟨" JOIN ", ⟨.table [c] [], some ⟨n, []⟩, []⟩, []⟩]⟩]
    views := []
    selection := some (.binary (.binary (.path [a, n]) (.compare .eq) (.path [b, n])) .and
      (.binary (.number ['7'] false) (.compare .lt) (.path [n, c])))
    tail := [] }, []⟩

def exchangedShape : Shape where
  tables := [['a'], ['b'], ['c']]
  aliases := [(['n'], ['c'])]
  predicates := [
    ⟨⟨some ['a'], ['n']⟩, .eq, .identifier ['b', '.', 'n']⟩,
    ⟨⟨some ['n'], ['c']⟩, .gt, .integer 7⟩]

def exchange : NameTable Text := [(['a'], ['b']), (['b'], ['a']), (['c'], ['s', '.', 'c'])]

theorem exchanged_tables_shape :
    ofStatement exchanged = .ok exchangedShape ∧
      ∃ next list, ofStatement (exchanged.renameTables ⟨exchange, exchangedShape.aliases⟩) =
          .ok next ∧
        next.tables.Pairwise (· < ·) ∧
        (∀ key, key ∈ next.tables ↔
          ∃ table ∈ exchangedShape.tables, (exchange.find? table).getD table = key) ∧
        next.aliases =
          exchangedShape.aliases.map (fun row => (row.1, (exchange.find? row.2).getD row.2)) ∧
        statementOperands exchanged = .ok list ∧
        exchangedShape.predicates = list.map OperandComparison.comparison ∧
        next.predicates =
          list.map fun c => (c.rename ⟨exchange, exchangedShape.aliases⟩).comparison :=
  ⟨rfl, renamed_statement_shape rfl exchange⟩

end Shape
end TripleTable
