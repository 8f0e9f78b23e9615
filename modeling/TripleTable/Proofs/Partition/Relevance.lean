import Mathlib.Data.List.Basic
import TripleTable.Proofs.Partition.Idempotence
set_option autoImplicit false

/-!
The rows of the metadata that a rewriting can see: the mappings that begin or end at a table of the
query, and the attributes of a matched table whose column is compared. Of these only the sequence
under one key counts, not how the rows of several keys lie between each other.
-/
namespace TripleTable.Partition
open Shape (Comparison)

def Metadata.mappingsFrom (metadata : Metadata) (origin : Text) : List TableMapping :=
  metadata.mappings.filter fun m => m.origin = origin

def Metadata.attributesFor (metadata : Metadata) (id : Int) (column : Text) : List Attribute :=
  metadata.attributes.filter fun a => a.tableId = id ∧ a.originColumn = column

-- The same rows under each key, in the same sequence.
structure Metadata.SameRows (left right : Metadata) : Prop where
  mappings : ∀ origin, left.mappingsFrom origin = right.mappingsFrom origin
  attributes : ∀ id column, left.attributesFor id column = right.attributesFor id column

def Metadata.matchedIds (metadata : Metadata) (shape : Shape) : List Int :=
  (matchedMappings shape.tables metadata.mappings).map fun (_, m) => m.id

-- What is left of the metadata without the rows that do not concern a query.
def Metadata.concerning (metadata : Metadata) (shape : Shape) : Metadata where
  mappings := metadata.mappings.filter fun m => m.origin ∈ shape.tables ∨ m.target ∈ shape.tables
  attributes := metadata.attributes.filter fun a =>
    a.tableId ∈ metadata.matchedIds shape ∧
      ∃ c ∈ shape.predicates, c.left.column = a.originColumn

theorem concerning_from (metadata : Metadata) {shape : Shape} {origin : Text}
    (table : origin ∈ shape.tables) :
    (metadata.concerning shape).mappingsFrom origin = metadata.mappingsFrom origin := by
  simp only [Metadata.mappingsFrom, Metadata.concerning, List.filter_filter]
  refine List.filter_congr fun m _ => ?_
  by_cases same : m.origin = origin
  · simp [same, table]
  · simp [same]

theorem concerning_for (metadata : Metadata) {shape : Shape} {id : Int} {c : Comparison}
    (matched : id ∈ metadata.matchedIds shape) (compared : c ∈ shape.predicates) :
    (metadata.concerning shape).attributesFor id c.left.column =
      metadata.attributesFor id c.left.column := by
  simp only [Metadata.attributesFor, Metadata.concerning, List.filter_filter]
  refine List.filter_congr fun a _ => ?_
  by_cases same : a.tableId = id ∧ a.originColumn = c.left.column
  · have concerned : ∃ other ∈ shape.predicates, other.left.column = c.left.column :=
      ⟨c, compared, rfl⟩
    simp [same.1, same.2, matched, concerned]
  · simp [same]

section
variable {left right : Metadata} {shape : Shape}

theorem matched_concerning (same : (left.concerning shape).SameRows (right.concerning shape)) :
    matchedMappings shape.tables left.mappings = matchedMappings shape.tables right.mappings := by
  refine NameTable.increasing_ext (matched_increasing _ _) (matched_increasing _ _) fun key => ?_
  rw [matched_find, matched_find]
  split
  · rename_i table
    have rows := same.mappings key
    rw [concerning_from left table, concerning_from right table] at rows
    rw [← List.head?_filter, ← List.head?_filter]
    exact congrArg List.head? rows
  · rfl

theorem target_concerning (same : (left.concerning shape).SameRows (right.concerning shape))
    (known : ∃ m ∈ left.mappings, m.target ∈ shape.tables) :
    ∃ m ∈ right.mappings, m.target ∈ shape.tables := by
  obtain ⟨m, member, target⟩ := known
  have listed : m ∈ (left.concerning shape).mappingsFrom m.origin := by
    simp [Metadata.mappingsFrom, Metadata.concerning, member, target]
  rw [same.mappings] at listed
  exact ⟨m, (List.mem_filter.mp (List.mem_filter.mp listed).1).1, target⟩

theorem any_target_concerning (same : (left.concerning shape).SameRows (right.concerning shape)) :
    (left.mappings.any fun m => shape.tables.contains m.target) =
      right.mappings.any fun m => shape.tables.contains m.target := by
  have back : (right.concerning shape).SameRows (left.concerning shape) :=
    ⟨fun origin => (same.mappings origin).symm, fun id column => (same.attributes id column).symm⟩
  rw [Bool.eq_iff_iff]
  simp only [List.any_eq_true, List.contains_iff_mem]
  exact ⟨target_concerning same, target_concerning back⟩

-- A comparison looks its column up under the id of a matched table, so the attributes it can
-- find are among those that concern the query.
theorem constrain_concerning (same : (left.concerning shape).SameRows (right.concerning shape))
    {c : Comparison} (compared : c ∈ shape.predicates) :
    constrain? shape (matchedMappings shape.tables left.mappings)
        (left.attributesOf (left.matchedIds shape)) c =
      constrain? shape (matchedMappings shape.tables right.mappings)
        (right.attributesOf (right.matchedIds shape)) c := by
  have matched := matched_concerning same
  have ids : left.matchedIds shape = right.matchedIds shape := by
    rw [Metadata.matchedIds, matched, ← Metadata.matchedIds]
  unfold constrain?
  rw [matched]
  refine Option.bind_congr fun table _ => Option.bind_congr fun m found => ?_
  have listed : m.id ∈ right.matchedIds shape := by
    have member := (NameTable.mem_find (matched_increasing _ _) table m).mpr found
    exact List.mem_map.mpr ⟨_, member, rfl⟩
  have rows := same.attributes m.id c.left.column
  rw [concerning_for left (ids ▸ listed) compared, concerning_for right listed compared] at rows
  rw [attribute_find left (ids ▸ listed), attribute_find right listed, ← List.head?_filter,
    ← List.head?_filter]
  exact congrArg (fun rows => (List.head? rows).bind _) rows

theorem findings_concerning (same : (left.concerning shape).SameRows (right.concerning shape)) :
    findings left shape = findings right shape := by
  refine List.filterMap_congr fun c compared => ?_
  exact congrArg (Option.map fun finding => (c, finding)) (constrain_concerning same compared)

theorem rewrite_query_concerning (sql : Text) (q : Sql.Query)
    (same : (left.concerning shape).SameRows (right.concerning shape)) :
    rewriteQuery left sql q shape = rewriteQuery right sql q shape := by
  have found := findings_concerning same
  have constraints : constraintsOf left shape = constraintsOf right shape := by
    rw [constraintsOf, found, ← constraintsOf]
  have skipped : skippedOf left shape = skippedOf right shape := by
    rw [skippedOf, found, ← skippedOf]
  have renamed : renamingOf left shape = renamingOf right shape := by
    rw [renamingOf, matched_concerning same, ← renamingOf]
  simp only [rewriteQuery, matched_concerning same, any_target_concerning same, constraints,
    skipped, renamed]

end

theorem rewrite_sees_concerned_rows (sql : Text) (left right : Metadata)
    (same : ∀ shape, walk sql = .ok shape →
      (left.concerning shape).SameRows (right.concerning shape)) :
    rewrite (.ok left) sql = rewrite (.ok right) sql := by
  unfold rewrite
  cases parsed : parseStatement sql with
  | error reason => rfl
  | ok statement =>
    cases walked : Shape.ofStatement statement with
    | error defect => simp [walked, bind, Except.bind, Except.mapError]
    | ok shape =>
      have concerned : walk sql = .ok shape := by
        simp [walk, parsed, walked, bind, Except.bind, Except.mapError]
      cases statement with
      | command kind => cases walked
      | query q =>
        simp only [walked, bind, Except.bind, Except.mapError]
        exact rewrite_query_concerning sql q (same shape concerned)

section
-- Two stores for a query of the one table `tbl`. The mapping of `tmp` ends at that table, so it
-- concerns the query, and lies in another place in each of them.
def crowded : Metadata where
  mappings := [⟨"tmp", 3, "tbl"⟩, ⟨"tbl", 1, "shard"⟩, ⟨"other", 1, "spare"⟩, ⟨"tbl", 2, "late"⟩]
  attributes := [⟨2, "fid", "late_part", 5⟩, ⟨1, "fid", "part", 20000⟩, ⟨1, "fid", "again", 7⟩]

def reordered : Metadata where
  mappings := [⟨"tbl", 1, "shard"⟩, ⟨"tbl", 2, "late"⟩, ⟨"tmp", 3, "tbl"⟩, ⟨"far", 9, "other"⟩]
  attributes := [⟨1, "fid", "part", 20000⟩, ⟨1, "gid", "gpart", 0⟩, ⟨1, "fid", "again", 7⟩]

theorem moved_row {moved first second : TableMapping} (apart : first.origin ≠ moved.origin)
    (same : first.origin = second.origin) (attributes : List Attribute) :
    Metadata.SameRows ⟨[moved, first, second], attributes⟩ ⟨[first, second, moved], attributes⟩ := by
  refine ⟨fun origin => ?_, fun _ _ => rfl⟩
  simp only [Metadata.mappingsFrom, List.filter_cons, List.filter_nil, ← same]
  by_cases here : first.origin = origin
  · simp [here, here ▸ apart.symm]
  · simp [here]

theorem crowded_rows : (crowded.concerning boundShape).SameRows (reordered.concerning boundShape) := by
  have left : crowded.concerning boundShape =
      ⟨[⟨"tmp", 3, "tbl"⟩, ⟨"tbl", 1, "shard"⟩, ⟨"tbl", 2, "late"⟩],
        [⟨1, "fid", "part", 20000⟩, ⟨1, "fid", "again", 7⟩]⟩ := by
    decide +kernel
  have right : reordered.concerning boundShape =
      ⟨[⟨"tbl", 1, "shard"⟩, ⟨"tbl", 2, "late"⟩, ⟨"tmp", 3, "tbl"⟩],
        [⟨1, "fid", "part", 20000⟩, ⟨1, "fid", "again", 7⟩]⟩ := by
    decide +kernel
  rw [left, right]
  refine moved_row ?_ ?_ _
  · decide
  · rfl

theorem crowded_store_seen_alike :
    (∀ shape, walk "SELECT * FROM tbl WHERE fid < 60000" = .ok shape →
      (crowded.concerning shape).SameRows (reordered.concerning shape)) ∧
    rewrite (.ok crowded) "SELECT * FROM tbl WHERE fid < 60000" =
      rewrite (.ok reordered) "SELECT * FROM tbl WHERE fid < 60000" := by
  have same : ∀ shape, walk "SELECT * FROM tbl WHERE fid < 60000" = .ok shape →
      (crowded.concerning shape).SameRows (reordered.concerning shape) := by
    intro shape walked
    rw [walk, bound_parsed] at walked
    obtain rfl : boundShape = shape := Except.ok.inj walked
    exact crowded_rows
  exact ⟨same, rewrite_sees_concerned_rows _ _ _ same⟩

end

end TripleTable.Partition
