import TripleTable.Proofs.Sql.PlainSelect
import TripleTable.Proofs.Sql.Renaming
set_option autoImplicit false

/-!
Renaming of plain statements: where no column is qualified by a renamed table, only the tables
change.
-/
namespace TripleTable.Sql

section
variable (r : Renaming)

def PlainTable.renamed (t : PlainTable) : PlainTable := ⟨r.relationKey t.name, t.short⟩

def PlainJoin.renamed (j : PlainJoin) : PlainJoin := { j with table := j.table.renamed r }

def PlainSelect.renamed (p : PlainSelect) : PlainSelect :=
  { p with table := p.table.renamed r, joins := p.joins.map (PlainJoin.renamed r) }

-- The qualifier of a column stays if it is an alias, or no table of that name is renamed.
def Side.Kept : Side → Prop
  | column table _ => r.aliases.contains table ∨ r.targets.find? table = none
  | string _ => True

def Equality.Kept (e : Equality) : Prop := e.left.Kept r ∧ e.right.Kept r

structure PlainSelect.Kept (p : PlainSelect) : Prop where
  items : ∀ side ∈ p.items, side.Kept r
  conditions : ∀ j ∈ p.joins, ∀ e ∈ j.on, e.Kept r
  filters : ∀ e ∈ p.filters, e.Kept r

end

section
variable {r : Renaming}

theorem rename_side {side : Side} (kept : side.Kept r) : side.expr.rename r = side.expr := by
  cases side with
  | string value => rfl
  | column table name =>
    have qualifier : r.qualifier [⟨table, none⟩] = [⟨table, none⟩] := by
      rw [Renaming.qualifier, Renaming.relationName, name_key]
      rcases kept with known | other
      · rw [if_pos known]
      · rw [other, ite_self]
    have path : r.path [⟨table, none⟩, ⟨name, none⟩] = [⟨table, none⟩, ⟨name, none⟩] := by
      have qualified := r.path_qualified ⟨table, none⟩ [] ⟨name, none⟩
      rwa [qualifier] at qualified
    exact congrArg Expr.path path

theorem rename_equality {e : Equality} (kept : e.Kept r) : e.expr.rename r = e.expr := by
  rw [Equality.expr, Expr.rename, rename_side kept.1, rename_side kept.2]

theorem rename_conjunction {first : Expr} {more : List Equality} (same : first.rename r = first)
    (kept : ∀ e ∈ more, e.Kept r) :
    (Equality.conjunction first more).rename r = Equality.conjunction first more := by
  induction more generalizing first with
  | nil => exact same
  | cons e more ih =>
    obtain ⟨here, later⟩ := List.forall_mem_cons.mp kept
    refine ih ?_ later
    rw [Expr.rename, same, rename_equality here]

theorem rename_all {conditions : List Equality} (kept : ∀ e ∈ conditions, e.Kept r) :
    renameSelection r (Equality.all conditions) = Equality.all conditions := by
  cases conditions with
  | nil => rfl
  | cons first more =>
    obtain ⟨here, later⟩ := List.forall_mem_cons.mp kept
    rw [Equality.all, renameSelection, rename_conjunction (rename_equality here) later]

theorem rename_maybe {lead : Text} {condition : Option Expr}
    (same : renameSelection r condition = condition) :
    renameParts r (Grammar.maybeParts lead condition) = Grammar.maybeParts lead condition := by
  cases condition with
  | none => rfl
  | some e =>
    have kept : e.rename r = e := Option.some.inj same
    rw [Grammar.maybeParts, renameParts, renameParts, renameParts, Part.rename, Part.rename, kept]

theorem rename_table (t : PlainTable) : t.relation.rename r = (t.renamed r).relation := by
  have name : r.relationName (Name.ofKey t.name) = Name.ofKey (r.relationKey t.name) := by
    rw [Renaming.relationName, key_of_key, Renaming.relationKey]
    cases r.targets.find? t.name <;> rfl
  rw [PlainTable.relation, Relation.rename, Factor.rename, name]
  rfl

theorem rename_join {j : PlainJoin} (kept : ∀ e ∈ j.on, e.Kept r) :
    j.join.rename r = (j.renamed r).join := by
  rw [PlainJoin.join, Join.rename, rename_table, rename_maybe (rename_all kept)]
  rfl

namespace PlainSelect
variable {p : PlainSelect}

theorem rename_block (kept : p.Kept r) : p.block.rename r = (p.renamed r).block := by
  have items : ∀ sides : List Side, (∀ side ∈ sides, side.Kept r) →
      renameItems r (sides.map fun side => .parts [.operand side.expr]) =
        sides.map fun side => .parts [.operand side.expr] := by
    intro sides kept
    induction sides with
    | nil => rfl
    | cons side sides ih =>
      obtain ⟨here, later⟩ := List.forall_mem_cons.mp kept
      rw [List.map_cons, renameItems, ih later, Item.rename, renameParts, renameParts, Part.rename,
        rename_side here]
  have joins : ∀ joins : List PlainJoin, (∀ j ∈ joins, ∀ e ∈ j.on, e.Kept r) →
      renameJoins r (joins.map PlainJoin.join) =
        (joins.map (PlainJoin.renamed r)).map PlainJoin.join := by
    intro joins kept
    induction joins with
    | nil => rfl
    | cons j joins ih =>
      obtain ⟨here, later⟩ := List.forall_mem_cons.mp kept
      rw [List.map_cons, renameJoins, ih later, rename_join here]
      rfl
  have head : renameParts r p.block.head = p.block.head := by
    rw [block]
    cases p.distinct <;> rfl
  have source : p.source.rename r = (p.renamed r).source := by
    rw [source, Source.rename, rename_table, joins p.joins kept.conditions]
    rfl
  have selection := rename_all kept.filters
  rw [block] at head ⊢
  rw [Select.rename, head, items p.items kept.items, selection, renameSources, renameSources,
    source]
  rfl

theorem rename_query (kept : p.Kept r) : p.query.renameTables r = (p.renamed r).query := by
  have wildcards : p.items.map (Item.renameWildcard r ∘ fun side => .parts [.operand side.expr]) =
      p.items.map fun side => .parts [.operand side.expr] := rfl
  have renamed : p.query.rename r = (p.renamed r).query := by
    rw [query, Query.rename, Body.rename, rename_block kept]
    rfl
  rw [Query.renameTables, renamed, query, Body.renameWildcards, block, List.map_map]
  exact congrArg (fun projection => Query.mk [] (.select { (p.renamed r).block with projection })
    [.words []]) wildcards

end PlainSelect
end
end TripleTable.Sql
