import TripleTable.Proofs.Text.Names
import TripleTable.Shape.Walk
set_option autoImplicit false

/-!
When the walk of a query succeeds, and which tables it then holds.
-/
namespace TripleTable.Shape
open Sql

def tableKey? (relation : Relation) : Option Text :=
  match relation.factor with
  | .table name _ => some name.key
  | _ => none

def enter (shape : Shape) (relation : Relation) : Shape :=
  match relation.factor with
  | .table name _ =>
    { shape with
      tables := insertName name.key shape.tables
      aliases :=
        match relation.aliased with
        | some a => shape.aliases.insert a.name.value name.key
        | none => shape.aliases }
  | _ => shape

theorem add_relation_table {relation : Relation} (table : (tableKey? relation).isSome)
    (shape : Shape) : addRelation shape relation = .ok (enter shape relation) := by
  obtain ⟨factor, aliased, hints⟩ := relation
  cases factor with
  | table name arguments => cases aliased <;> rfl
  | _ => cases table

theorem add_relation_accepted {shape next : Shape} {relation : Relation}
    (added : addRelation shape relation = .ok next) : (tableKey? relation).isSome := by
  obtain ⟨factor, aliased, hints⟩ := relation
  cases factor with
  | table name arguments => rfl
  | _ => cases added

theorem add_relations {relations : List Relation} {shape next : Shape} :
    relations.foldlM addRelation shape = .ok next ↔
      (∀ relation ∈ relations, (tableKey? relation).isSome) ∧
        next = relations.foldl enter shape := by
  induction relations generalizing shape with
  | nil =>
    simp only [List.foldlM_nil, pure, Except.pure, Except.ok.injEq, List.not_mem_nil,
      false_implies, implies_true, true_and, List.foldl_nil]
    exact eq_comm
  | cons relation rest ih =>
    rw [List.foldlM_cons, List.foldl_cons, List.forall_mem_cons]
    constructor
    · intro added
      cases first : addRelation shape relation with
      | error defect => simp [first, bind, Except.bind] at added
      | ok middle =>
        have table := add_relation_accepted first
        rw [add_relation_table table] at added
        obtain ⟨tables, same⟩ := ih.mp added
        exact ⟨⟨table, tables⟩, same⟩
    · rintro ⟨⟨table, tables⟩, same⟩
      rw [add_relation_table table]
      exact ih.mpr ⟨tables, same⟩

theorem enter_tables (shape : Shape) (relation : Relation) (key : Text) :
    key ∈ (enter shape relation).tables ↔ key ∈ shape.tables ∨ tableKey? relation = some key := by
  obtain ⟨factor, aliased, hints⟩ := relation
  cases factor with
  | table name arguments =>
    rw [enter, mem_insert_name, or_comm, eq_comm]
    simp [tableKey?]
  | _ => simp [enter, tableKey?]

theorem entered_tables (relations : List Relation) (shape : Shape) (key : Text) :
    key ∈ (relations.foldl enter shape).tables ↔
      key ∈ shape.tables ∨ ∃ relation ∈ relations, tableKey? relation = some key := by
  induction relations generalizing shape with
  | nil => simp
  | cons relation rest ih =>
    rw [List.foldl_cons, ih, enter_tables]
    simp only [List.mem_cons, exists_eq_or_imp, or_assoc]

theorem entered_rest (relations : List Relation) (shape : Shape) :
    (relations.foldl enter shape).projection = shape.projection ∧
      (relations.foldl enter shape).predicates = shape.predicates := by
  induction relations generalizing shape with
  | nil => exact ⟨rfl, rfl⟩
  | cons relation rest ih =>
    obtain ⟨projection, predicates⟩ := ih (enter shape relation)
    rw [List.foldl_cons, projection, predicates]
    obtain ⟨factor, aliased, hints⟩ := relation
    cases factor <;> exact ⟨rfl, rfl⟩

theorem entered_increasing (relations : List Relation) {shape : Shape}
    (increasing : shape.tables.Pairwise (· < ·)) :
    (relations.foldl enter shape).tables.Pairwise (· < ·) := by
  induction relations generalizing shape with
  | nil => exact increasing
  | cons relation rest ih =>
    obtain ⟨factor, aliased, hints⟩ := relation
    rw [List.foldl_cons]
    cases factor with
    | table name arguments => exact ih (insert_name_increasing name.key increasing)
    | _ => exact ih increasing

theorem is_integer_value {e : Expr} (integer : isInteger (literal e)) :
    ∃ n, literal e = .ok (.integer n) := by
  cases read : literal e with
  | error defect => simp [isInteger, read] at integer
  | ok value =>
    cases value with
    | integer n => exact ⟨n, rfl⟩
    | _ => simp [isInteger, read] at integer

theorem disjunction_column_or {left right : Expr} {column : ColumnRef} :
    disjunctionColumn? (.binary left .or right) = some column ↔
      disjunctionColumn? left = some column ∧ disjunctionColumn? right = some column := by
  rw [disjunctionColumn?]
  cases disjunctionColumn? left with
  | none => simp
  | some first =>
    cases disjunctionColumn? right with
    | none => simp
    | some second =>
      by_cases same : second = first
      · subst same
        simp
      · have apart : ¬ (first = column ∧ second = column) := fun both =>
          same (both.2.trans both.1.symm)
        simp [same, apart]

theorem comparisons_and {left right : Expr} {list : List Comparison} :
    comparisons (.binary left .and right) = .ok list ↔
      ∃ first second, comparisons left = .ok first ∧ comparisons right = .ok second ∧
        list = first ++ second := by
  rw [comparisons]
  cases comparisons left with
  | error defect => simp [bind, Except.bind]
  | ok first =>
    cases comparisons right with
    | error defect => simp [bind, Except.bind]
    | ok second => simp [bind, Except.bind, pure, Except.pure, eq_comm]

theorem comparisons_compare {left right : Expr} {op : ComparisonOp} {list : List Comparison} :
    comparisons (.binary left (.compare op) right) = .ok list ↔
      ∃ c, normalize left op right = .ok c ∧ list = [c] := by
  rw [comparisons]
  cases normalize left op right with
  | error defect => simp [bind, Except.bind]
  | ok c => simp [bind, Except.bind, pure, Except.pure, eq_comm]

def selected : Option Expr → Except ShapeDefect (List Comparison)
  | some condition => comparisons condition
  | none => .ok []

def entered (block : Select) : Shape :=
  (block.sources.flatMap leaves).foldl enter { projection := block.projection.map Item.text }

-- A block is accepted just when its relations are tables and its condition is a conjunction of
-- comparisons.
theorem of_select {block : Select} {shape : Shape} :
    ofSelect block = .ok shape ↔
      (∀ relation ∈ block.sources.flatMap leaves, (tableKey? relation).isSome) ∧
        ∃ list, selected block.selection = .ok list ∧
          shape = { entered block with predicates := list } := by
  have predicates : (entered block).predicates = [] := (entered_rest _ _).2
  have alone : { entered block with predicates := [] } = entered block := by rw [← predicates]
  unfold ofSelect
  constructor
  · intro walked
    cases added : (block.sources.flatMap leaves).foldlM addRelation
        { projection := block.projection.map Item.text } with
    | error defect => simp [added, bind, Except.bind] at walked
    | ok middle =>
      obtain ⟨tables, rfl⟩ := add_relations.mp added
      refine ⟨tables, ?_⟩
      simp only [added, bind, Except.bind, pure, Except.pure] at walked
      cases selection : block.selection with
      | none =>
        simp only [selection, Except.ok.injEq] at walked
        exact ⟨[], rfl, walked.symm.trans alone.symm⟩
      | some condition =>
        cases read : comparisons condition with
        | error defect => simp [selection, read] at walked
        | ok list =>
          simp only [selection, read, Except.ok.injEq] at walked
          exact ⟨list, read, walked.symm⟩
  · rintro ⟨tables, list, read, rfl⟩
    have added : (block.sources.flatMap leaves).foldlM addRelation
        { projection := block.projection.map Item.text } = .ok (entered block) :=
      add_relations.mpr ⟨tables, rfl⟩
    simp only [added, bind, Except.bind, pure, Except.pure]
    cases selection : block.selection with
    | none =>
      obtain rfl : [] = list := by simpa [selected, selection] using read
      exact congrArg Except.ok alone.symm
    | some condition =>
      simp only [selected, selection] at read
      simp only [read]

theorem of_select_tables {block : Select} {shape : Shape} (walked : ofSelect block = .ok shape)
    (key : Text) :
    key ∈ shape.tables ↔
      ∃ relation ∈ block.sources.flatMap leaves, tableKey? relation = some key := by
  obtain ⟨-, list, -, rfl⟩ := of_select.mp walked
  simp only [entered, entered_tables, List.not_mem_nil, false_or]

theorem of_query {q : Query} {shape : Shape} :
    ofQuery q = .ok shape ↔
      q.hasSubquery = false ∧ q.ctes = [] ∧
        ∃ block, q.body = .select block ∧ ofSelect block = .ok shape := by
  unfold ofQuery
  by_cases nested : q.hasSubquery || !q.ctes.isEmpty
  · rw [if_pos nested]
    constructor
    · intro walked
      cases walked
    · rintro ⟨subquery, ctes, -⟩
      simp [subquery, ctes] at nested
  · rw [if_neg nested]
    simp only [Bool.or_eq_true, Bool.not_eq_true', not_or, Bool.not_eq_true, Bool.not_eq_false,
      List.isEmpty_iff] at nested
    cases body : q.body with
    | select block => simp [nested]
    | _ => simp

end TripleTable.Shape
