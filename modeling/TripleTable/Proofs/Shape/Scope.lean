import TripleTable.Proofs.Shape.Renaming
set_option autoImplicit false

/-!
The relations of a FROM clause and the names they are reached by. A qualifier goes on to denote the
table at the same position, unless renaming gives its new name to another relation as well.
-/
namespace TripleTable.Shape
open Sql

mutual

-- The relations at any depth, those in parentheses behind the join that they make up.
def members : Source → List Relation
  | ⟨relation, joins⟩ => relationMembers relation ++ joinMembers joins

def joinMembers : List Join → List Relation
  | [] => []
  | ⟨_, relation, _⟩ :: rest => relationMembers relation ++ joinMembers rest

def relationMembers : Relation → List Relation
  | ⟨factor, aliased, hints⟩ =>
    match factor with
    | .nested inner => ⟨.nested inner, aliased, hints⟩ :: members inner
    | other => [⟨other, aliased, hints⟩]

end

def relations (block : Select) : List Relation := block.sources.flatMap members

-- The name that the columns of a relation are reached by. A join in parentheses has one only if
-- it has an alias.
def exposed? (relation : Relation) : Option Text :=
  match relation.aliased with
  | some a => some a.name.value
  | none => tableKey? relation

-- A qualifier denotes the table at a position, and no other relation.
structure Denotes (relations : List Relation) (qualifier : Text) (i : Nat) : Prop where
  table : ∃ relation, relations[i]? = some relation ∧ (tableKey? relation).isSome ∧
    exposed? relation = some qualifier
  alone : ∀ j relation, relations[j]? = some relation → exposed? relation = some qualifier → j = i

-- Renaming gives a relation of another name the name that the qualifier has from then on.
def Captured (r : Renaming) (relations : List Relation) (qualifier : Text) : Prop :=
  ∃ other ∈ relations, exposed? other ≠ some qualifier ∧
    exposed? (other.rename r) = some (r.qualifierKey qualifier)

/-! ### Members -/

mutual
theorem members_rename (r : Renaming) (source : Source) :
    members (source.rename r) = (members source).map (Relation.rename r) := by
  obtain ⟨relation, joins⟩ := source
  simp only [Source.rename, members, List.map_append, relation_members_rename r relation,
    join_members_rename r joins]

theorem join_members_rename (r : Renaming) (joins : List Join) :
    joinMembers (renameJoins r joins) = (joinMembers joins).map (Relation.rename r) := by
  cases joins with
  | nil => rfl
  | cons join rest =>
    obtain ⟨kind, relation, constraint⟩ := join
    simp only [renameJoins, Join.rename, joinMembers, List.map_append,
      relation_members_rename r relation, join_members_rename r rest]

theorem relation_members_rename (r : Renaming) (relation : Relation) :
    relationMembers (relation.rename r) = (relationMembers relation).map (Relation.rename r) := by
  obtain ⟨factor, aliased, hints⟩ := relation
  cases factor with
  | nested inner => exact congrArg (_ :: ·) (members_rename r inner)
  | _ => rfl
end

theorem relations_rename (r : Renaming) (block : Select) :
    relations (renamedBlock r block) = (relations block).map (Relation.rename r) := by
  obtain ⟨head, projection, target, sources, views, selection, tail⟩ := block
  simp only [relations, renamedBlock, Select.rename]
  induction sources with
  | nil => rfl
  | cons source rest ih =>
    simp only [renameSources, List.flatMap_cons, List.map_append, members_rename, ih]

def isLeaf (relation : Relation) : Bool :=
  match relation.factor with
  | .nested _ => false
  | _ => true

mutual
theorem leaves_members (source : Source) : leaves source = (members source).filter isLeaf := by
  obtain ⟨relation, joins⟩ := source
  simp only [leaves, members, List.filter_append, relation_leaves_members relation,
    join_leaves_members joins]

theorem join_leaves_members (joins : List Join) :
    joinLeaves joins = (joinMembers joins).filter isLeaf := by
  cases joins with
  | nil => rfl
  | cons join rest =>
    obtain ⟨kind, relation, constraint⟩ := join
    simp only [joinLeaves, joinMembers, List.filter_append, relation_leaves_members relation,
      join_leaves_members rest]

theorem relation_leaves_members (relation : Relation) :
    relationLeaves relation = (relationMembers relation).filter isLeaf := by
  obtain ⟨factor, aliased, hints⟩ := relation
  cases factor with
  | nested inner => exact leaves_members inner
  | _ => rfl
end

theorem block_leaves (block : Select) :
    block.sources.flatMap leaves = (relations block).filter isLeaf := by
  rw [relations]
  induction block.sources with
  | nil => rfl
  | cons source rest ih =>
    simp only [List.flatMap_cons, List.filter_append, leaves_members, ih]

theorem table_is_leaf {relation : Relation} (table : (tableKey? relation).isSome) :
    isLeaf relation := by
  obtain ⟨factor, aliased, hints⟩ := relation
  cases factor <;> first | rfl | cases table

-- Among the relations of a block, a table is one that the walk enters.
theorem mem_leaves {block : Select} {relation : Relation} (table : (tableKey? relation).isSome) :
    relation ∈ block.sources.flatMap leaves ↔ relation ∈ relations block := by
  rw [block_leaves, List.mem_filter, and_iff_left (table_is_leaf table)]

/-! ### Aliases -/

theorem entered_contains (members : List Relation) (shape : Shape) (name : Text) :
    (members.foldl enter shape).aliases.contains name ↔
      shape.aliases.contains name ∨ ∃ relation ∈ members, (tableKey? relation).isSome ∧
        ∃ a, relation.aliased = some a ∧ a.name.value = name := by
  induction members generalizing shape with
  | nil => simp
  | cons relation rest ih =>
    obtain ⟨factor, aliased, hints⟩ := relation
    simp only [List.foldl_cons, ih, List.mem_cons, exists_eq_or_imp, ← or_assoc]
    refine or_congr ?_ Iff.rfl
    cases factor with
    | table table arguments =>
      cases aliased with
      | none => simp [enter]
      | some a =>
        simp only [enter, NameTable.contains_find, NameTable.find_insert]
        by_cases same : a.name.value = name <;> simp [same, tableKey?]
    | _ => simp [enter, tableKey?]

theorem alias_contains {block : Select} {shape : Shape} (walked : ofSelect block = .ok shape)
    (name : Text) :
    shape.aliases.contains name ↔ ∃ relation ∈ relations block, (tableKey? relation).isSome ∧
      ∃ a, relation.aliased = some a ∧ a.name.value = name := by
  obtain ⟨-, list, -, rfl⟩ := of_select.mp walked
  have none_before : NameTable.contains ([] : NameTable Text) name = false := rfl
  simp only [entered, entered_contains, none_before, Bool.false_eq_true, false_or]
  constructor
  · rintro ⟨relation, member, table, rest⟩
    exact ⟨relation, (mem_leaves table).mp member, table, rest⟩
  · rintro ⟨relation, member, table, rest⟩
    exact ⟨relation, (mem_leaves table).mpr member, table, rest⟩

theorem alias_of_known {shape : Shape} {c : ColumnRef} {table name : Text}
    (found : shape.aliasOf? c table = some name) : shape.aliases.contains name := by
  unfold aliasOf? at found
  split at found
  · split at found
    · obtain rfl := Option.some.inj found
      assumption
    · cases found
  · split at found
    · rename_i row rows
      obtain rfl := Option.some.inj found
      have member : row ∈ shape.aliases := (List.mem_filter.mp (rows ▸ List.mem_cons_self)).1
      exact List.any_eq_true.mpr ⟨row, member, by simp⟩
    · cases found

theorem table_mem {block : Select} {shape : Shape} (walked : ofSelect block = .ok shape)
    (key : Text) :
    key ∈ shape.tables ↔ ∃ relation ∈ relations block, tableKey? relation = some key := by
  rw [of_select_tables walked]
  constructor
  · rintro ⟨relation, member, same⟩
    have table : (tableKey? relation).isSome := by rw [same]; rfl
    exact ⟨relation, (mem_leaves table).mp member, same⟩
  · rintro ⟨relation, member, same⟩
    have table : (tableKey? relation).isSome := by rw [same]; rfl
    exact ⟨relation, (mem_leaves table).mpr member, same⟩

/-! ### Renamed qualifiers -/

theorem exposed_aliased {relation : Relation} {a : Alias} (aliased : relation.aliased = some a)
    (r : Renaming) : exposed? (relation.rename r) = some a.name.value := by
  obtain ⟨factor, _, hints⟩ := relation
  cases aliased
  rfl

theorem exposed_plain {relation : Relation} (plain : relation.aliased = none) (r : Renaming) :
    exposed? (relation.rename r) = (tableKey? relation).map r.relationKey := by
  rw [← table_key_rename]
  obtain ⟨factor, _, hints⟩ := relation
  cases plain
  rfl

section
variable {block : Select} {shape : Shape} {qualifier : Text} {i : Nat}

-- A qualifier that denotes an unaliased table is no alias: the alias would be a second relation
-- of that name.
theorem Denotes.not_alias (walked : ofSelect block = .ok shape)
    (denotes : Denotes (relations block) qualifier i) {relation : Relation}
    (found : (relations block)[i]? = some relation) (plain : relation.aliased = none) :
    shape.aliases.contains qualifier = false := by
  rw [← Bool.not_eq_true]
  intro hidden
  obtain ⟨other, member, -, a, aliased, same⟩ := (alias_contains walked qualifier).mp hidden
  obtain ⟨j, at_j⟩ := List.mem_iff_getElem?.mp member
  have reached : exposed? other = some qualifier := by simp only [exposed?, aliased, same]
  obtain rfl := denotes.alone j other at_j reached
  obtain rfl := Option.some.inj (at_j.symm.trans found)
  rw [plain] at aliased
  cases aliased

-- The name of the table at the position is what renaming makes of the qualifier.
theorem Denotes.renamed_name (walked : ofSelect block = .ok shape)
    (denotes : Denotes (relations block) qualifier i) (targets : NameTable Text)
    {relation : Relation} (found : (relations block)[i]? = some relation) :
    exposed? (relation.rename ⟨targets, shape.aliases⟩) =
      some (Renaming.qualifierKey ⟨targets, shape.aliases⟩ qualifier) := by
  obtain ⟨other, at_i, table, reached⟩ := denotes.table
  obtain rfl := Option.some.inj (at_i.symm.trans found)
  cases aliased : other.aliased with
  | some a =>
    have same : a.name.value = qualifier := by simpa [exposed?, aliased] using reached
    have hidden : shape.aliases.contains qualifier :=
      (alias_contains walked qualifier).mpr
        ⟨other, List.mem_of_getElem? found, table, a, aliased, same⟩
    rw [exposed_aliased aliased, Renaming.qualifierKey, if_pos hidden, same]
  | none =>
    have plain := denotes.not_alias walked found aliased
    have key : tableKey? other = some qualifier := by simpa [exposed?, aliased] using reached
    simp [exposed_plain aliased, key, Renaming.qualifierKey, plain]

-- The table at the position is always among those that the renamed qualifier denotes.
theorem Denotes.renamed (walked : ofSelect block = .ok shape)
    (denotes : Denotes (relations block) qualifier i) (targets : NameTable Text) :
    Denotes ((relations block).map (Relation.rename ⟨targets, shape.aliases⟩))
        (Renaming.qualifierKey ⟨targets, shape.aliases⟩ qualifier) i ↔
      ¬ Captured ⟨targets, shape.aliases⟩ (relations block) qualifier := by
  obtain ⟨relation, found, table, reached⟩ := denotes.table
  have name := denotes.renamed_name walked targets found
  constructor
  · rintro again ⟨other, member, different, captured⟩
    obtain ⟨j, at_j⟩ := List.mem_iff_getElem?.mp member
    obtain rfl := again.alone j _ (by rw [List.getElem?_map, at_j]; rfl) captured
    obtain rfl := Option.some.inj (at_j.symm.trans found)
    exact different reached
  · intro free
    refine ⟨⟨relation.rename _, by rw [List.getElem?_map, found]; rfl, ?_, name⟩, ?_⟩
    · rwa [table_key_rename, Option.isSome_map]
    · intro j other at_j reached_j
      rw [List.getElem?_map] at at_j
      obtain ⟨before, at_before, rfl⟩ := Option.map_eq_some_iff.mp at_j
      refine denotes.alone j before at_before (Decidable.byContradiction fun different => ?_)
      exact free ⟨before, List.mem_of_getElem? at_before, different, reached_j⟩

end

end TripleTable.Shape
