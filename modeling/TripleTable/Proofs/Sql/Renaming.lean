import TripleTable.Proofs.Text.Names
import TripleTable.Sql.Nesting
import TripleTable.Sql.Renaming
set_option autoImplicit false

/-!
What renaming does to the dotted keys of names, and that it leaves subqueries where they are.
-/
namespace TripleTable.Sql

theorem key_of_key (key : Text) : (Name.ofKey key).key = key := by
  have values : (Text.splitOn (· == '.') key).map (Ident.value ∘ fun value => ⟨value, none⟩) =
      Text.splitOn (· == '.') key := List.map_id' _
  rw [Name.key, Name.ofKey, List.map_map, values]
  exact Text.join_split '.' key

theorem name_of_key_text (key : Text) : (Name.ofKey key).text = key := by
  have texts : (Text.splitOn (· == '.') key).map (Ident.text ∘ fun value => ⟨value, none⟩) =
      Text.splitOn (· == '.') key := List.map_id' _
  rw [Name.text, Name.ofKey, List.map_map, texts]
  exact Text.join_split '.' key

theorem name_key (name : Text) : Name.key [⟨name, none⟩] = name := by
  simp [Name.key, Text.join]

theorem of_key_inhabited (key : Text) : Name.ofKey key ≠ [] := by
  intro empty
  exact Text.splitOn_ne_nil _ _ (List.map_eq_nil_iff.mp empty)

theorem of_key_plain {name : Text} (plain : '.' ∉ name) : Name.ofKey name = [⟨name, none⟩] := by
  rw [Name.ofKey, Text.split_plain plain]
  rfl

theorem of_key_qualified (qualifier : Text) {column : Text} (plain : '.' ∉ column) :
    Name.ofKey (qualifier ++ "." ++ column) = Name.ofKey qualifier ++ [⟨column, none⟩] := by
  rw [Name.ofKey, Text.split_qualified qualifier plain, List.map_append]
  rfl

namespace Renaming
variable (r : Renaming)

def relationKey (key : Text) : Text := (r.targets.find? key).getD key

def qualifierKey (key : Text) : Text := if r.aliases.contains key then key else r.relationKey key

theorem relation_name_key (name : Name) : (r.relationName name).key = r.relationKey name.key := by
  unfold relationName relationKey
  cases r.targets.find? name.key with
  | none => rfl
  | some target => exact key_of_key target

theorem qualifier_key (name : Name) : (r.qualifier name).key = r.qualifierKey name.key := by
  unfold qualifier qualifierKey
  by_cases hidden : r.aliases.contains name.key
  · simp [hidden]
  · simpa [hidden] using r.relation_name_key name

theorem qualifier_inhabited (first : Ident) (rest : Name) : r.qualifier (first :: rest) ≠ [] := by
  unfold qualifier relationName
  split
  · simp
  · split
    · exact of_key_inhabited _
    · simp

-- A qualified name keeps its last part behind the renamed qualifier.
theorem path_qualified (first : Ident) (rest : Name) (column : Ident) :
    r.path (first :: rest ++ [column]) = r.qualifier (first :: rest) ++ [column] := by
  unfold path
  rw [List.getLast?_concat, List.dropLast_concat]

end Renaming

mutual
theorem rename_expr_subquery (r : Renaming) (e : Expr) :
    (e.rename r).hasSubquery = e.hasSubquery := by
  cases e with
  | nested inner => exact rename_expr_subquery r inner
  | unary op operand => exact rename_expr_subquery r operand
  | binary left op right =>
    simp only [Expr.rename, Expr.hasSubquery, rename_expr_subquery r left,
      rename_expr_subquery r right]
  | form parts => exact rename_parts_subquery r parts
  | _ => rfl

theorem rename_part_subquery (r : Renaming) (part : Part) :
    (part.rename r).hasSubquery = part.hasSubquery := by
  cases part with
  | words text => rfl
  | operand e => exact rename_expr_subquery r e
  | query q => exact rename_query_subquery r q
  | source s => exact rename_source_subquery r s

theorem rename_parts_subquery (r : Renaming) (parts : List Part) :
    partsHaveSubquery (renameParts r parts) = partsHaveSubquery parts := by
  cases parts with
  | nil => rfl
  | cons part rest =>
    simp only [renameParts, partsHaveSubquery, rename_part_subquery r part,
      rename_parts_subquery r rest]

theorem rename_query_subquery (r : Renaming) (q : Query) :
    (q.rename r).hasSubquery = q.hasSubquery := by
  obtain ⟨ctes, body, tail⟩ := q
  simp only [Query.rename, Query.hasSubquery, rename_parts_subquery r ctes,
    rename_body_subquery r body, rename_parts_subquery r tail]

theorem rename_body_subquery (r : Renaming) (body : Body) :
    (body.rename r).hasSubquery = body.hasSubquery := by
  cases body with
  | select block => exact rename_select_subquery r block
  | nested q => exact rename_query_subquery r q
  | combined left op quantifier right =>
    simp only [Body.rename, Body.hasSubquery, rename_body_subquery r left,
      rename_body_subquery r right]
  | other parts => exact rename_parts_subquery r parts

theorem rename_select_subquery (r : Renaming) (block : Select) :
    (block.rename r).hasSubquery = block.hasSubquery := by
  obtain ⟨head, projection, target, sources, views, selection, tail⟩ := block
  simp only [Select.rename, Select.hasSubquery, rename_parts_subquery r head,
    rename_items_subquery r projection, rename_sources_subquery r sources,
    rename_parts_subquery r views, rename_selection_subquery r selection,
    rename_parts_subquery r tail]

theorem rename_selection_subquery (r : Renaming) (selection : Option Expr) :
    selectionHasSubquery (renameSelection r selection) = selectionHasSubquery selection := by
  cases selection with
  | none => rfl
  | some condition => exact rename_expr_subquery r condition

theorem rename_item_subquery (r : Renaming) (item : Item) :
    (item.rename r).hasSubquery = item.hasSubquery := by
  cases item with
  | parts parts => exact rename_parts_subquery r parts
  | qualifiedWildcard name options => exact rename_parts_subquery r options

theorem rename_items_subquery (r : Renaming) (items : List Item) :
    itemsHaveSubquery (renameItems r items) = itemsHaveSubquery items := by
  cases items with
  | nil => rfl
  | cons item rest =>
    simp only [renameItems, itemsHaveSubquery, rename_item_subquery r item,
      rename_items_subquery r rest]

theorem rename_source_subquery (r : Renaming) (source : Source) :
    (source.rename r).hasSubquery = source.hasSubquery := by
  obtain ⟨relation, joins⟩ := source
  simp only [Source.rename, Source.hasSubquery, rename_relation_subquery r relation,
    rename_joins_subquery r joins]

theorem rename_sources_subquery (r : Renaming) (sources : List Source) :
    sourcesHaveSubquery (renameSources r sources) = sourcesHaveSubquery sources := by
  cases sources with
  | nil => rfl
  | cons source rest =>
    simp only [renameSources, sourcesHaveSubquery, rename_source_subquery r source,
      rename_sources_subquery r rest]

theorem rename_joins_subquery (r : Renaming) (joins : List Join) :
    joinsHaveSubquery (renameJoins r joins) = joinsHaveSubquery joins := by
  cases joins with
  | nil => rfl
  | cons join rest =>
    simp only [renameJoins, joinsHaveSubquery, rename_join_subquery r join,
      rename_joins_subquery r rest]

theorem rename_join_subquery (r : Renaming) (join : Join) :
    (join.rename r).hasSubquery = join.hasSubquery := by
  obtain ⟨kind, relation, constraint⟩ := join
  simp only [Join.rename, Join.hasSubquery, rename_relation_subquery r relation,
    rename_parts_subquery r constraint]

theorem rename_relation_subquery (r : Renaming) (relation : Relation) :
    (relation.rename r).hasSubquery = relation.hasSubquery := by
  obtain ⟨factor, aliased, hints⟩ := relation
  simp only [Relation.rename, Relation.hasSubquery, rename_factor_subquery r factor,
    rename_parts_subquery r hints]

theorem rename_factor_subquery (r : Renaming) (factor : Factor) :
    (factor.rename r).hasSubquery = factor.hasSubquery := by
  cases factor with
  | table name arguments => exact rename_parts_subquery r arguments
  | derived lateral q => exact rename_query_subquery r q
  | nested inner => exact rename_source_subquery r inner
  | other parts => exact rename_parts_subquery r parts
end

theorem rename_tables_subquery (r : Renaming) (q : Query) :
    (q.renameTables r).hasSubquery = q.hasSubquery := by
  have wildcards : ∀ items : List Item,
      itemsHaveSubquery (items.map (Item.renameWildcard r)) = itemsHaveSubquery items := by
    intro items
    induction items with
    | nil => rfl
    | cons item rest ih =>
      have same : (item.renameWildcard r).hasSubquery = item.hasSubquery := by cases item <;> rfl
      simp only [List.map_cons, itemsHaveSubquery, same, ih]
  rw [← rename_query_subquery r q, Query.renameTables]
  cases renamed : q.rename r with
  | mk ctes body tail =>
    cases body with
    | select block =>
      obtain ⟨head, projection, target, sources, views, selection, tail⟩ := block
      simp only [Body.renameWildcards, Query.hasSubquery, Body.hasSubquery, Select.hasSubquery,
        wildcards]
    | _ => rfl

end TripleTable.Sql
