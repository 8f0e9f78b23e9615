import TripleTable.Proofs.Shape.Walking
import TripleTable.Proofs.Sql.PlainSelect
import TripleTable.Proofs.Sql.Renaming
set_option autoImplicit false

/-!
The shape of a plain statement: its items, tables, aliases and equalities.
-/
namespace TripleTable.Sql
open Shape

def Side.literal : Side → Shape.Literal
  | column table name => .identifier (table ++ '.' :: name)
  | string value => .string value

def Equality.comparison (e : Equality) : Comparison :=
  ⟨⟨some e.table, e.column⟩, .eq, e.right.literal⟩

section
variable {more : List Equality}

theorem name_text (table name : Text) :
    Name.text [⟨table, none⟩, ⟨name, none⟩] = table ++ '.' :: name := by
  simp [Name.text, Ident.text, Text.join]

theorem literal_side (side : Side) : Shape.literal side.expr = .ok side.literal := by
  cases side with
  | column table name => rw [Side.literal, ← name_text, Side.expr, literal]
  | string value => rfl

theorem equality_normal (e : Equality) :
    Shape.normalize e.left.expr .eq e.right.expr = .ok e.comparison := by
  have column : columnRef? e.left.expr = some ⟨some e.table, e.column⟩ := by
    rw [← name_key e.table]
    rfl
  rw [Shape.normalize, column, literal_side]
  rfl

theorem comparisons_equality (e : Equality) : comparisons e.expr = .ok [e.comparison] :=
  comparisons_compare.mpr ⟨e.comparison, equality_normal e, rfl⟩

theorem comparisons_conjunction {first : Expr} {list : List Comparison}
    (read : comparisons first = .ok list) :
    comparisons (Equality.conjunction first more) =
      .ok (list ++ more.map Equality.comparison) := by
  induction more generalizing first list with
  | nil => simpa [Equality.conjunction] using read
  | cons e more ih =>
    have both : comparisons (.binary first .and e.expr) = .ok (list ++ [e.comparison]) :=
      comparisons_and.mpr ⟨list, [e.comparison], read, comparisons_equality e, rfl⟩
    simpa [Equality.conjunction] using ih both

theorem selected_all (conditions : List Equality) :
    selected (Equality.all conditions) = .ok (conditions.map Equality.comparison) := by
  cases conditions with
  | nil => rfl
  | cons first more => exact comparisons_conjunction (comparisons_equality first)

theorem side_subquery (side : Side) : side.expr.hasSubquery = false := by
  cases side <;> rfl

theorem equality_subquery (e : Equality) : e.expr.hasSubquery = false := by
  simp [Equality.expr, Expr.hasSubquery, side_subquery]

theorem conjunction_subquery {first : Expr} (none : first.hasSubquery = false) :
    (Equality.conjunction first more).hasSubquery = false := by
  induction more generalizing first with
  | nil => exact none
  | cons e more ih =>
    refine ih ?_
    simp [Expr.hasSubquery, none, equality_subquery]

theorem all_subquery (conditions : List Equality) :
    selectionHasSubquery (Equality.all conditions) = false := by
  cases conditions with
  | nil => rfl
  | cons first more => exact conjunction_subquery (equality_subquery first)

theorem join_subquery (j : PlainJoin) : j.join.hasSubquery = false := by
  have relation : j.table.relation.hasSubquery = false := rfl
  have constraint : partsHaveSubquery (Grammar.maybeParts " ON " (Equality.all j.on)) = false := by
    have none := all_subquery j.on
    cases all : Equality.all j.on with
    | none => rfl
    | some condition =>
      rw [all, selectionHasSubquery] at none
      simp [Grammar.maybeParts, partsHaveSubquery, Part.hasSubquery, none]
  rw [PlainJoin.join, Join.hasSubquery, relation, constraint]
  rfl

end

namespace PlainSelect
variable (p : PlainSelect)

theorem query_subquery : p.query.hasSubquery = false := by
  have items : ∀ sides : List Side,
      itemsHaveSubquery (sides.map fun side => .parts [.operand side.expr]) = false := by
    intro sides
    induction sides with
    | nil => rfl
    | cons side sides ih =>
      simp [itemsHaveSubquery, Item.hasSubquery, partsHaveSubquery, Part.hasSubquery,
        side_subquery, ih]
  have joins : ∀ joins : List PlainJoin,
      joinsHaveSubquery (joins.map PlainJoin.join) = false := by
    intro joins
    induction joins with
    | nil => rfl
    | cons j joins ih => simp [joinsHaveSubquery, join_subquery, ih]
  have source : p.source.hasSubquery = false := by
    have relation : p.table.relation.hasSubquery = false := rfl
    rw [source, Source.hasSubquery, relation, joins]
    rfl
  have head : partsHaveSubquery p.block.head = false := by
    simp only [block]
    cases p.distinct <;> rfl
  have body : p.block.hasSubquery = false := by
    have selection : selectionHasSubquery p.block.selection = false := all_subquery p.filters
    have sources : sourcesHaveSubquery p.block.sources = false := by
      rw [block, sourcesHaveSubquery, source]
      rfl
    rw [block] at head selection sources ⊢
    rw [Select.hasSubquery, head, items, sources, selection]
    rfl
  rw [query, Query.hasSubquery, Body.hasSubquery, body]
  rfl

def tables : List PlainTable := p.table :: p.joins.map PlainJoin.table

theorem leaves_source : leaves p.source = p.tables.map PlainTable.relation := by
  have joins : ∀ joins : List PlainJoin,
      joinLeaves (joins.map PlainJoin.join) =
        (joins.map PlainJoin.table).map PlainTable.relation := by
    intro joins
    induction joins with
    | nil => rfl
    | cons j joins ih =>
      rw [List.map_cons, PlainJoin.join, joinLeaves, ih]
      rfl
  rw [source, leaves, joins]
  rfl

end PlainSelect

section
variable {tables : List PlainTable}

theorem enter_table (shape : Shape) (t : PlainTable) :
    enter shape t.relation = { shape with
      tables := insertName t.name shape.tables
      aliases := shape.aliases.insert t.short t.name } := by
  have key := key_of_key t.name
  simp only [enter, PlainTable.relation, key]

theorem entered_names (shape : Shape) (name : Text) :
    name ∈ ((tables.map PlainTable.relation).foldl enter shape).tables ↔
      name ∈ shape.tables ∨ name ∈ tables.map PlainTable.name := by
  induction tables generalizing shape with
  | nil => simp
  | cons t tables ih =>
    rw [List.map_cons, List.foldl_cons, ih, enter_table, mem_insert_name, List.map_cons,
      List.mem_cons, or_assoc, or_left_comm]

-- Of tables with different aliases, each is found under its own.
theorem entered_aliases (different : (tables.map PlainTable.short).Nodup) (shape : Shape)
    (name key : Text) :
    ((tables.map PlainTable.relation).foldl enter shape).aliases.find? name = some key ↔
      (∃ t ∈ tables, t.short = name ∧ t.name = key) ∨
        (∀ t ∈ tables, t.short ≠ name) ∧ shape.aliases.find? name = some key := by
  induction tables generalizing shape with
  | nil => simp
  | cons t tables ih =>
    obtain ⟨absent, later⟩ := List.nodup_cons.mp different
    rw [List.map_cons, List.foldl_cons, ih later, enter_table, NameTable.find_insert]
    by_cases same : t.short = name
    · subst same
      have others : ∀ u ∈ tables, u.short ≠ t.short := fun u member same =>
        absent (same ▸ List.mem_map_of_mem member)
      rw [if_pos rfl, Option.some.injEq]
      constructor
      · rintro (⟨u, member, same, -⟩ | ⟨-, value⟩)
        · exact absurd same (others u member)
        · exact Or.inl ⟨t, List.mem_cons_self, rfl, value⟩
      · rintro (⟨u, member, same, value⟩ | ⟨none, -⟩)
        · rcases List.mem_cons.mp member with rfl | member
          · exact Or.inr ⟨others, value⟩
          · exact absurd same (others u member)
        · exact absurd rfl (none t List.mem_cons_self)
    · simp [same]

end

structure PlainSelect.Shows (p : PlainSelect) (shape : Shape) : Prop where
  projection : shape.projection = p.items.map fun side => side.expr.text
  increasing : shape.tables.Pairwise (· < ·)
  tables : ∀ name, name ∈ shape.tables ↔ name ∈ p.tables.map PlainTable.name
  aliases : ∀ short name, shape.aliases.find? short = some name ↔ ⟨name, short⟩ ∈ p.tables
  predicates : shape.predicates = p.filters.map Equality.comparison

theorem plain_select_shape (p : PlainSelect)
    (different : (p.tables.map PlainTable.short).Nodup) :
    ∃ shape, Shape.ofQuery p.query = .ok shape ∧ p.Shows shape := by
  have leaves : p.block.sources.flatMap leaves = p.tables.map PlainTable.relation := by
    rw [← PlainSelect.leaves_source]
    exact List.append_nil _
  have items : p.block.projection.map Item.text = p.items.map fun side => side.expr.text := by
    rw [PlainSelect.block, List.map_map]
    refine List.map_congr_left fun side _ => ?_
    exact List.append_nil _
  have start : entered p.block = (p.tables.map PlainTable.relation).foldl enter
      { projection := p.items.map fun side => side.expr.text } := by
    rw [entered, leaves, items]
  refine ⟨{ entered p.block with predicates := p.filters.map Equality.comparison }, ?_, ?_⟩
  · refine of_query.mpr ⟨p.query_subquery, rfl, p.block, rfl, of_select.mpr ⟨?_, ?_⟩⟩
    · rw [leaves]
      intro relation member
      obtain ⟨t, -, rfl⟩ := List.mem_map.mp member
      rfl
    · exact ⟨_, selected_all p.filters, rfl⟩
  · rw [start]
    constructor
    · exact (entered_rest _ _).1
    · exact entered_increasing _ List.Pairwise.nil
    · intro name
      rw [entered_names]
      simp
    · intro short name
      rw [entered_aliases different]
      constructor
      · rintro (⟨t, member, rfl, rfl⟩ | ⟨-, found⟩)
        · exact member
        · cases found
      · intro member
        exact Or.inl ⟨_, member, rfl, rfl⟩
    · rfl

end TripleTable.Sql
