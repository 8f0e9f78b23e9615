import TripleTable.Proofs.Sql.Renaming
set_option autoImplicit false

/-!
The names in a statement that renaming may replace, in the order they are written, and the outline
of the statement that is left without them. Renaming works on each name by itself and keeps the
outline.
-/
namespace TripleTable.Sql

inductive Occurrence where
  | table (name : Name)
  | path (names : Name)
deriving DecidableEq, Repr

def Occurrence.rename (r : Renaming) : Occurrence → Occurrence
  | table name => table (r.relationName name)
  | path names => path (r.path names)

/-! ### Names -/

mutual

def Expr.occurrences : Expr → List Occurrence
  | .column _ => []
  | .path names => [.path names]
  | .number _ _ => []
  | .string _ => []
  | .boolean _ => []
  | .null => []
  | .nested inner => inner.occurrences
  | .unary _ operand => operand.occurrences
  | .binary left _ right => left.occurrences ++ right.occurrences
  | .subquery q => q.occurrences
  | .inSubquery operand _ q => operand.occurrences ++ q.occurrences
  | .existsSubquery _ q => q.occurrences
  | .form parts => partsOccurrences parts

def Part.occurrences : Part → List Occurrence
  | .words _ => []
  | .operand e => e.occurrences
  | .query q => q.occurrences
  | .source s => s.occurrences

def partsOccurrences : List Part → List Occurrence
  | [] => []
  | part :: rest => part.occurrences ++ partsOccurrences rest

def Query.occurrences : Query → List Occurrence
  | ⟨ctes, body, tail⟩ => partsOccurrences ctes ++ body.occurrences ++ partsOccurrences tail

def Body.occurrences : Body → List Occurrence
  | .select block => block.occurrences
  | .nested q => q.occurrences
  | .combined left _ _ right => left.occurrences ++ right.occurrences
  | .other parts => partsOccurrences parts

def Select.occurrences : Select → List Occurrence
  | ⟨head, projection, _, sources, views, selection, tail⟩ =>
    partsOccurrences head ++ itemsOccurrences projection ++ sourcesOccurrences sources ++
      partsOccurrences views ++ selectionOccurrences selection ++ partsOccurrences tail

def selectionOccurrences : Option Expr → List Occurrence
  | none => []
  | some condition => condition.occurrences

def Item.occurrences : Item → List Occurrence
  | .parts parts => partsOccurrences parts
  | .qualifiedWildcard _ options => partsOccurrences options

def itemsOccurrences : List Item → List Occurrence
  | [] => []
  | item :: rest => item.occurrences ++ itemsOccurrences rest

def Source.occurrences : Source → List Occurrence
  | ⟨relation, joins⟩ => relation.occurrences ++ joinsOccurrences joins

def sourcesOccurrences : List Source → List Occurrence
  | [] => []
  | source :: rest => source.occurrences ++ sourcesOccurrences rest

def joinsOccurrences : List Join → List Occurrence
  | [] => []
  | join :: rest => join.occurrences ++ joinsOccurrences rest

def Join.occurrences : Join → List Occurrence
  | ⟨_, relation, constraint⟩ => relation.occurrences ++ partsOccurrences constraint

def Relation.occurrences : Relation → List Occurrence
  | ⟨factor, _, hints⟩ => factor.occurrences ++ partsOccurrences hints

def Factor.occurrences : Factor → List Occurrence
  | .table name arguments => .table name :: partsOccurrences arguments
  | .derived _ q => q.occurrences
  | .nested inner => inner.occurrences
  | .other parts => partsOccurrences parts

end

mutual
theorem expr_occurrences_rename (r : Renaming) (e : Expr) :
    (e.rename r).occurrences = e.occurrences.map (Occurrence.rename r) := by
  cases e with
  | nested inner => exact expr_occurrences_rename r inner
  | unary op operand => exact expr_occurrences_rename r operand
  | binary left op right =>
    simp only [Expr.rename, Expr.occurrences, List.map_append, expr_occurrences_rename r left,
      expr_occurrences_rename r right]
  | subquery q => exact query_occurrences_rename r q
  | inSubquery operand negated q =>
    simp only [Expr.rename, Expr.occurrences, List.map_append, expr_occurrences_rename r operand,
      query_occurrences_rename r q]
  | existsSubquery negated q => exact query_occurrences_rename r q
  | form parts => exact parts_occurrences_rename r parts
  | _ => rfl

theorem part_occurrences_rename (r : Renaming) (part : Part) :
    (part.rename r).occurrences = part.occurrences.map (Occurrence.rename r) := by
  cases part with
  | words text => rfl
  | operand e => exact expr_occurrences_rename r e
  | query q => exact query_occurrences_rename r q
  | source s => exact source_occurrences_rename r s

theorem parts_occurrences_rename (r : Renaming) (parts : List Part) :
    partsOccurrences (renameParts r parts) =
      (partsOccurrences parts).map (Occurrence.rename r) := by
  cases parts with
  | nil => rfl
  | cons part rest =>
    simp only [renameParts, partsOccurrences, List.map_append, part_occurrences_rename r part,
      parts_occurrences_rename r rest]

theorem query_occurrences_rename (r : Renaming) (q : Query) :
    (q.rename r).occurrences = q.occurrences.map (Occurrence.rename r) := by
  obtain ⟨ctes, body, tail⟩ := q
  simp only [Query.rename, Query.occurrences, List.map_append, parts_occurrences_rename r ctes,
    body_occurrences_rename r body, parts_occurrences_rename r tail]

theorem body_occurrences_rename (r : Renaming) (body : Body) :
    (body.rename r).occurrences = body.occurrences.map (Occurrence.rename r) := by
  cases body with
  | select block => exact select_occurrences_rename r block
  | nested q => exact query_occurrences_rename r q
  | combined left op quantifier right =>
    simp only [Body.rename, Body.occurrences, List.map_append, body_occurrences_rename r left,
      body_occurrences_rename r right]
  | other parts => exact parts_occurrences_rename r parts

theorem select_occurrences_rename (r : Renaming) (block : Select) :
    (block.rename r).occurrences = block.occurrences.map (Occurrence.rename r) := by
  obtain ⟨head, projection, target, sources, views, selection, tail⟩ := block
  simp only [Select.rename, Select.occurrences, List.map_append, parts_occurrences_rename r head,
    items_occurrences_rename r projection, sources_occurrences_rename r sources,
    parts_occurrences_rename r views, selection_occurrences_rename r selection,
    parts_occurrences_rename r tail]

theorem selection_occurrences_rename (r : Renaming) (selection : Option Expr) :
    selectionOccurrences (renameSelection r selection) =
      (selectionOccurrences selection).map (Occurrence.rename r) := by
  cases selection with
  | none => rfl
  | some condition => exact expr_occurrences_rename r condition

theorem item_occurrences_rename (r : Renaming) (item : Item) :
    (item.rename r).occurrences = item.occurrences.map (Occurrence.rename r) := by
  cases item with
  | parts parts => exact parts_occurrences_rename r parts
  | qualifiedWildcard name options => exact parts_occurrences_rename r options

theorem items_occurrences_rename (r : Renaming) (items : List Item) :
    itemsOccurrences (renameItems r items) =
      (itemsOccurrences items).map (Occurrence.rename r) := by
  cases items with
  | nil => rfl
  | cons item rest =>
    simp only [renameItems, itemsOccurrences, List.map_append, item_occurrences_rename r item,
      items_occurrences_rename r rest]

theorem source_occurrences_rename (r : Renaming) (source : Source) :
    (source.rename r).occurrences = source.occurrences.map (Occurrence.rename r) := by
  obtain ⟨relation, joins⟩ := source
  simp only [Source.rename, Source.occurrences, List.map_append,
    relation_occurrences_rename r relation, joins_occurrences_rename r joins]

theorem sources_occurrences_rename (r : Renaming) (sources : List Source) :
    sourcesOccurrences (renameSources r sources) =
      (sourcesOccurrences sources).map (Occurrence.rename r) := by
  cases sources with
  | nil => rfl
  | cons source rest =>
    simp only [renameSources, sourcesOccurrences, List.map_append,
      source_occurrences_rename r source, sources_occurrences_rename r rest]

theorem joins_occurrences_rename (r : Renaming) (joins : List Join) :
    joinsOccurrences (renameJoins r joins) =
      (joinsOccurrences joins).map (Occurrence.rename r) := by
  cases joins with
  | nil => rfl
  | cons join rest =>
    simp only [renameJoins, joinsOccurrences, List.map_append, join_occurrences_rename r join,
      joins_occurrences_rename r rest]

theorem join_occurrences_rename (r : Renaming) (join : Join) :
    (join.rename r).occurrences = join.occurrences.map (Occurrence.rename r) := by
  obtain ⟨kind, relation, constraint⟩ := join
  simp only [Join.rename, Join.occurrences, List.map_append,
    relation_occurrences_rename r relation, parts_occurrences_rename r constraint]

theorem relation_occurrences_rename (r : Renaming) (relation : Relation) :
    (relation.rename r).occurrences = relation.occurrences.map (Occurrence.rename r) := by
  obtain ⟨factor, aliased, hints⟩ := relation
  simp only [Relation.rename, Relation.occurrences, List.map_append,
    factor_occurrences_rename r factor, parts_occurrences_rename r hints]

theorem factor_occurrences_rename (r : Renaming) (factor : Factor) :
    (factor.rename r).occurrences = factor.occurrences.map (Occurrence.rename r) := by
  cases factor with
  | table name arguments =>
    simp only [Factor.rename, Factor.occurrences, List.map_cons, Occurrence.rename,
      parts_occurrences_rename r arguments]
  | derived lateral q => exact query_occurrences_rename r q
  | nested inner => exact source_occurrences_rename r inner
  | other parts => exact parts_occurrences_rename r parts
end

theorem wildcards_occurrences (r : Renaming) (items : List Item) :
    itemsOccurrences (items.map (Item.renameWildcard r)) = itemsOccurrences items := by
  induction items with
  | nil => rfl
  | cons item rest ih =>
    have same : (item.renameWildcard r).occurrences = item.occurrences := by cases item <;> rfl
    simp only [List.map_cons, itemsOccurrences, same, ih]

def Occurrence.path? : Occurrence → Option Name
  | table _ => none
  | path names => some names

def Query.references (q : Query) : List Name := q.occurrences.filterMap Occurrence.path?

def Expr.references (e : Expr) : List Name := e.occurrences.filterMap Occurrence.path?

theorem paths_rename (r : Renaming) (occurrences : List Occurrence) :
    (occurrences.map (Occurrence.rename r)).filterMap Occurrence.path? =
      (occurrences.filterMap Occurrence.path?).map r.path := by
  induction occurrences with
  | nil => rfl
  | cons occurrence rest ih =>
    cases occurrence with
    | table name => exact ih
    | path names => exact congrArg (r.path names :: ·) ih

theorem conditions_paths (conditions : List Expr) :
    (conditions.flatMap Expr.occurrences).filterMap Occurrence.path? =
      conditions.flatMap Expr.references := by
  induction conditions with
  | nil => rfl
  | cons condition rest ih =>
    rw [List.flatMap_cons, List.filterMap_append, ih, List.flatMap_cons, Expr.references]

/-! ### Outlines -/

mutual

def Expr.outline : Expr → Expr
  | .column name => .column name
  | .path _ => .path []
  | .number digits long => .number digits long
  | .string value => .string value
  | .boolean value => .boolean value
  | .null => .null
  | .nested inner => .nested inner.outline
  | .unary op operand => .unary op operand.outline
  | .binary left op right => .binary left.outline op right.outline
  | .subquery q => .subquery q.outline
  | .inSubquery operand negated q => .inSubquery operand.outline negated q.outline
  | .existsSubquery negated q => .existsSubquery negated q.outline
  | .form parts => .form (partsOutline parts)

def Part.outline : Part → Part
  | .words text => .words text
  | .operand e => .operand e.outline
  | .query q => .query q.outline
  | .source s => .source s.outline

def partsOutline : List Part → List Part
  | [] => []
  | part :: rest => part.outline :: partsOutline rest

def Query.outline : Query → Query
  | ⟨ctes, body, tail⟩ => ⟨partsOutline ctes, body.outline, partsOutline tail⟩

def Body.outline : Body → Body
  | .select block => .select block.outline
  | .nested q => .nested q.outline
  | .combined left op quantifier right => .combined left.outline op quantifier right.outline
  | .other parts => .other (partsOutline parts)

def Select.outline : Select → Select
  | ⟨head, projection, target, sources, views, selection, tail⟩ =>
    ⟨partsOutline head, itemsOutline projection, target, sourcesOutline sources,
      partsOutline views, selectionOutline selection, partsOutline tail⟩

def selectionOutline : Option Expr → Option Expr
  | none => none
  | some condition => some condition.outline

def Item.outline : Item → Item
  | .parts parts => .parts (partsOutline parts)
  | .qualifiedWildcard name options => .qualifiedWildcard name (partsOutline options)

def itemsOutline : List Item → List Item
  | [] => []
  | item :: rest => item.outline :: itemsOutline rest

def Source.outline : Source → Source
  | ⟨relation, joins⟩ => ⟨relation.outline, joinsOutline joins⟩

def sourcesOutline : List Source → List Source
  | [] => []
  | source :: rest => source.outline :: sourcesOutline rest

def joinsOutline : List Join → List Join
  | [] => []
  | join :: rest => join.outline :: joinsOutline rest

def Join.outline : Join → Join
  | ⟨kind, relation, constraint⟩ => ⟨kind, relation.outline, partsOutline constraint⟩

def Relation.outline : Relation → Relation
  | ⟨factor, aliased, hints⟩ => ⟨factor.outline, aliased, partsOutline hints⟩

def Factor.outline : Factor → Factor
  | .table _ arguments => .table [] (partsOutline arguments)
  | .derived lateral q => .derived lateral q.outline
  | .nested inner => .nested inner.outline
  | .other parts => .other (partsOutline parts)

end

mutual
theorem expr_outline_rename (r : Renaming) (e : Expr) : (e.rename r).outline = e.outline := by
  cases e with
  | nested inner => exact congrArg Expr.nested (expr_outline_rename r inner)
  | unary op operand => exact congrArg (Expr.unary op) (expr_outline_rename r operand)
  | binary left op right =>
    simp only [Expr.rename, Expr.outline, expr_outline_rename r left, expr_outline_rename r right]
  | subquery q => exact congrArg Expr.subquery (query_outline_rename r q)
  | inSubquery operand negated q =>
    simp only [Expr.rename, Expr.outline, expr_outline_rename r operand, query_outline_rename r q]
  | existsSubquery negated q =>
    exact congrArg (Expr.existsSubquery negated) (query_outline_rename r q)
  | form parts => exact congrArg Expr.form (parts_outline_rename r parts)
  | _ => rfl

theorem part_outline_rename (r : Renaming) (part : Part) :
    (part.rename r).outline = part.outline := by
  cases part with
  | words text => rfl
  | operand e => exact congrArg Part.operand (expr_outline_rename r e)
  | query q => exact congrArg Part.query (query_outline_rename r q)
  | source s => exact congrArg Part.source (source_outline_rename r s)

theorem parts_outline_rename (r : Renaming) (parts : List Part) :
    partsOutline (renameParts r parts) = partsOutline parts := by
  cases parts with
  | nil => rfl
  | cons part rest =>
    simp only [renameParts, partsOutline, part_outline_rename r part, parts_outline_rename r rest]

theorem query_outline_rename (r : Renaming) (q : Query) : (q.rename r).outline = q.outline := by
  obtain ⟨ctes, body, tail⟩ := q
  simp only [Query.rename, Query.outline, parts_outline_rename r ctes, body_outline_rename r body,
    parts_outline_rename r tail]

theorem body_outline_rename (r : Renaming) (body : Body) :
    (body.rename r).outline = body.outline := by
  cases body with
  | select block => exact congrArg Body.select (select_outline_rename r block)
  | nested q => exact congrArg Body.nested (query_outline_rename r q)
  | combined left op quantifier right =>
    simp only [Body.rename, Body.outline, body_outline_rename r left, body_outline_rename r right]
  | other parts => exact congrArg Body.other (parts_outline_rename r parts)

theorem select_outline_rename (r : Renaming) (block : Select) :
    (block.rename r).outline = block.outline := by
  obtain ⟨head, projection, target, sources, views, selection, tail⟩ := block
  simp only [Select.rename, Select.outline, parts_outline_rename r head,
    items_outline_rename r projection, sources_outline_rename r sources,
    parts_outline_rename r views, selection_outline_rename r selection,
    parts_outline_rename r tail]

theorem selection_outline_rename (r : Renaming) (selection : Option Expr) :
    selectionOutline (renameSelection r selection) = selectionOutline selection := by
  cases selection with
  | none => rfl
  | some condition => exact congrArg some (expr_outline_rename r condition)

theorem item_outline_rename (r : Renaming) (item : Item) :
    (item.rename r).outline = item.outline := by
  cases item with
  | parts parts => exact congrArg Item.parts (parts_outline_rename r parts)
  | qualifiedWildcard name options =>
    exact congrArg (Item.qualifiedWildcard name) (parts_outline_rename r options)

theorem items_outline_rename (r : Renaming) (items : List Item) :
    itemsOutline (renameItems r items) = itemsOutline items := by
  cases items with
  | nil => rfl
  | cons item rest =>
    simp only [renameItems, itemsOutline, item_outline_rename r item, items_outline_rename r rest]

theorem source_outline_rename (r : Renaming) (source : Source) :
    (source.rename r).outline = source.outline := by
  obtain ⟨relation, joins⟩ := source
  simp only [Source.rename, Source.outline, relation_outline_rename r relation,
    joins_outline_rename r joins]

theorem sources_outline_rename (r : Renaming) (sources : List Source) :
    sourcesOutline (renameSources r sources) = sourcesOutline sources := by
  cases sources with
  | nil => rfl
  | cons source rest =>
    simp only [renameSources, sourcesOutline, source_outline_rename r source,
      sources_outline_rename r rest]

theorem joins_outline_rename (r : Renaming) (joins : List Join) :
    joinsOutline (renameJoins r joins) = joinsOutline joins := by
  cases joins with
  | nil => rfl
  | cons join rest =>
    simp only [renameJoins, joinsOutline, join_outline_rename r join, joins_outline_rename r rest]

theorem join_outline_rename (r : Renaming) (join : Join) :
    (join.rename r).outline = join.outline := by
  obtain ⟨kind, relation, constraint⟩ := join
  simp only [Join.rename, Join.outline, relation_outline_rename r relation,
    parts_outline_rename r constraint]

theorem relation_outline_rename (r : Renaming) (relation : Relation) :
    (relation.rename r).outline = relation.outline := by
  obtain ⟨factor, aliased, hints⟩ := relation
  simp only [Relation.rename, Relation.outline, factor_outline_rename r factor,
    parts_outline_rename r hints]

theorem factor_outline_rename (r : Renaming) (factor : Factor) :
    (factor.rename r).outline = factor.outline := by
  cases factor with
  | table name arguments => exact congrArg (Factor.table []) (parts_outline_rename r arguments)
  | derived lateral q => exact congrArg (Factor.derived lateral) (query_outline_rename r q)
  | nested inner => exact congrArg Factor.nested (source_outline_rename r inner)
  | other parts => exact congrArg Factor.other (parts_outline_rename r parts)
end

end TripleTable.Sql
