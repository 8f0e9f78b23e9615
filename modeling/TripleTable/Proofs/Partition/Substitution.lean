import TripleTable.Proofs.Partition.Frame
import TripleTable.Proofs.Partition.References
set_option autoImplicit false

/-!
Which tables of a query are substituted: those that some mapping begins at, each by the first
mapping that does, wherever in the FROM clause they stand. The rows of other mappings, and rows
further behind, do not count.
-/
namespace TripleTable.Partition
open Sql
open Shape (relations tableKey?)

-- A table of the FROM clause, at any depth of joins in parentheses.
def Referenced (q : Query) (name : Text) : Prop :=
  ∃ block, q.body = .select block ∧ ∃ relation ∈ relations block, tableKey? relation = some name

theorem referenced_table {q : Query} {shape : Shape} (walked : Shape.ofQuery q = .ok shape)
    (name : Text) : name ∈ shape.tables ↔ Referenced q name := by
  obtain ⟨-, -, block, body, entered⟩ := Shape.of_query.mp walked
  rw [Shape.table_mem entered]
  constructor
  · intro listed
    exact ⟨block, body, listed⟩
  · intro referenced
    obtain ⟨found, same, listed⟩ := referenced
    obtain rfl := Body.select.inj (body.symm.trans same)
    exact listed

/-! ### The rows of the outcome -/

section
variable {metadata : Metadata} {shape : Shape}

theorem substitution_mem {s : Substitution} :
    s ∈ substitutionsOf metadata shape ↔
      s.origin ∈ shape.tables ∧
        metadata.mappings.find? (fun m => m.origin = s.origin) =
          some ⟨s.origin, s.id, s.target⟩ := by
  rw [← matched_row]
  constructor
  · intro member
    obtain ⟨⟨key, m⟩, row, rfl⟩ := List.mem_map.mp member
    obtain rfl := matched_origin row
    exact row
  · intro row
    exact List.mem_map.mpr ⟨_, row, rfl⟩

theorem substitutions_increasing :
    (substitutionsOf metadata shape).Pairwise fun s t => s.origin < t.origin := by
  have origins : (substitutionsOf metadata shape).map Substitution.origin =
      (matchedMappings shape.tables metadata.mappings).map Prod.fst := by
    rw [substitutionsOf, List.map_map]
    exact List.map_congr_left fun row member => matched_origin member
  rw [← List.pairwise_map, origins]
  exact matched_increasing shape.tables metadata.mappings

end

/-! ### The relations of the rewritten statement -/

theorem constraint_no_table (c : Constraint) (name : Name) :
    .table name ∉ c.expr.occurrences := by
  by_cases empty : c.partitions = []
  · simp [Constraint.expr, empty, disjunction?, Expr.occurrences]
  · have terms : ∀ e ∈ c.partitions.map (Constraint.equality c.column),
        .table name ∉ e.occurrences := by
      refine List.forall_mem_map.mpr fun p _ => ?_
      simp [Constraint.equality, Expr.occurrences]
    obtain ⟨e, made, apart⟩ := disjunction_all (P := fun e => .table name ∉ e.occurrences)
      (fun left right here there => by simp [Expr.occurrences, here, there])
      (by simpa using empty) terms
    simpa only [Constraint.expr, made, Option.getD_some, Expr.occurrences] using apart

theorem renamed_occurrence {r : Renaming} {occurrences : List Occurrence} {name : Name}
    (member : .table name ∈ occurrences.map (Occurrence.rename r)) :
    ∃ old, .table old ∈ occurrences ∧ r.relationName old = name := by
  obtain ⟨occurrence, among, same⟩ := List.mem_map.mp member
  cases occurrence with
  | path names => cases same
  | table old => exact ⟨old, among, Occurrence.table.inj same⟩

section
variable {metadata : Metadata} {shape : Shape} {q : Query} {block : Select}

-- The constraints behind the condition compare columns and name no relation.
theorem rewritten_relation (body : q.body = .select block)
    (matched : matchedMappings shape.tables metadata.mappings ≠ []) {name : Name}
    (member : .table name ∈ (rewrittenQuery metadata shape q).occurrences) :
    ∃ old, .table old ∈ q.occurrences ∧
      (renamingOf metadata shape).relationName old = name := by
  obtain ⟨front, back, before, after⟩ := conjoined_occurrences body
  rw [rewrittenQuery, if_neg (by simpa using matched), after, List.append_assoc] at member
  rw [before]
  rcases List.mem_append.mp member with early | rest
  · obtain ⟨old, among, same⟩ := renamed_occurrence early
    exact ⟨old, List.mem_append_left back among, same⟩
  · rcases List.mem_append.mp rest with added | late
    · obtain ⟨e, condition, occurs⟩ := List.mem_flatMap.mp added
      obtain ⟨c, -, rfl⟩ := List.mem_map.mp condition
      exact absurd occurs (constraint_no_table c name)
    · obtain ⟨old, among, same⟩ := renamed_occurrence late
      exact ⟨old, List.mem_append_right front among, same⟩

-- A relation that nothing is matched with keeps its name, which then is no matched origin.
theorem renamed_origin {old : Name} {s : Substitution}
    (member : s ∈ substitutionsOf metadata shape)
    (same : ((renamingOf metadata shape).relationName old).key = s.origin) :
    ∃ t ∈ substitutionsOf metadata shape, t.target = s.origin := by
  rw [Renaming.relation_name_key, renaming_key] at same
  cases found : (matchedMappings shape.tables metadata.mappings).find? old.key with
  | some m =>
    rw [found, Option.map_some, Option.getD_some] at same
    have row := (NameTable.mem_find (matched_increasing _ _) _ _).mpr found
    exact ⟨_, List.mem_map_of_mem row, same⟩
  | none =>
    rw [found, Option.map_none, Option.getD_none] at same
    obtain ⟨table, first⟩ := substitution_mem.mp member
    rw [same, matched_find, if_pos table, first] at found
    cases found

end

/-! ### The three outcomes -/

theorem tables_matched_exactly {metadata : Metadata} {sql : Text} {q : Query} {shape : Shape}
    (parsed : parseStatement sql = .ok (.query q))
    (walked : Shape.ofQuery q = .ok shape) :
    (rewrite (.ok metadata) sql = .error .noPartitionedTable ↔
      ∀ m ∈ metadata.mappings, ¬ Referenced q m.origin ∧ ¬ Referenced q m.target) ∧
    (rewrite (.ok metadata) sql = .ok { sql } ↔
      (∀ m ∈ metadata.mappings, ¬ Referenced q m.origin) ∧
        ∃ m ∈ metadata.mappings, Referenced q m.target) ∧
    ((∃ m ∈ metadata.mappings, Referenced q m.origin) →
      ∃ outcome, rewrite (.ok metadata) sql = .ok outcome ∧
        outcome.sql = (rewrittenQuery metadata shape q).text ∧
        (outcome.substitutions.Pairwise fun s t => s.origin < t.origin) ∧
        (∀ s, s ∈ outcome.substitutions ↔ Referenced q s.origin ∧
          metadata.mappings.find? (fun m => m.origin = s.origin) =
            some ⟨s.origin, s.id, s.target⟩) ∧
        ∀ name, .table name ∈ (rewrittenQuery metadata shape q).occurrences →
          ∀ s ∈ outcome.substitutions, name.key = s.origin →
            ∃ t ∈ outcome.substitutions, t.target = name.key) := by
  obtain ⟨-, -, block, body, -⟩ := Shape.of_query.mp walked
  rw [rewrite_walked parsed walked]
  simp only [← referenced_table walked]
  by_cases origin : ∃ m ∈ metadata.mappings, m.origin ∈ shape.tables
  · obtain ⟨m, member, table⟩ := origin
    have matched : matchedMappings shape.tables metadata.mappings ≠ [] := fun none_matched =>
      matched_empty.mp none_matched m member table
    rw [matched_outcome matched]
    refine ⟨iff_of_false (by simp) fun apart => (apart m member).1 table,
      iff_of_false (fun same => ?_) fun apart => apart.1 m member table,
      fun _ => ⟨_, rfl, rfl, substitutions_increasing, fun s => substitution_mem,
        fun name occurs s listed same => ?_⟩⟩
    · have unchanged := congrArg Outcome.substitutions (Except.ok.inj same)
      exact absurd unchanged (by simpa [substitutionsOf] using matched)
    · obtain ⟨old, -, rfl⟩ := rewritten_relation body matched occurs
      rw [same]
      exact renamed_origin listed same
  · have apart : ∀ m ∈ metadata.mappings, m.origin ∉ shape.tables := by simpa using origin
    rw [unmatched_outcome (matched_none apart)]
    by_cases target : ∃ m ∈ metadata.mappings, m.target ∈ shape.tables
    · obtain ⟨m, member, table⟩ := target
      rw [if_pos ⟨m, member, table⟩]
      exact ⟨iff_of_false (by simp) fun none_named => (none_named m member).2 table,
        iff_of_true rfl ⟨apart, m, member, table⟩, fun found => absurd found origin⟩
    · rw [if_neg target]
      exact ⟨iff_of_true rfl fun m member => ⟨apart m member, fun table =>
          target ⟨m, member, table⟩⟩,
        iff_of_false (by simp) fun named => target named.2, fun found => absurd found origin⟩

section
-- Two tables of a join in parentheses that change names with each other; the last row comes too
-- late.
def swapped : Metadata := ⟨[⟨"b", 7, "a"⟩, ⟨"a", 7, "b"⟩, ⟨"a", 9, "z"⟩], []⟩

def aliasedJoinShape : Shape where
  projection := ["tbl.x"]
  tables := ["a", "b", "tbl"]
  aliases := [("t", "tbl")]

theorem swapped_tables_matched :
    (∃ outcome, rewrite (.ok swapped) aliasedJoinText = .ok outcome ∧
      ⟨"a", "b", 7⟩ ∈ outcome.substitutions ∧ ⟨"a", "z", 9⟩ ∉ outcome.substitutions ∧
      .table [⟨"a", none⟩] ∈ (rewrittenQuery swapped aliasedJoinShape aliasedJoin).occurrences ∧
      ∃ t ∈ outcome.substitutions, t.target = "a") ∧
    rewrite (.ok ⟨[⟨"x", 1, "b"⟩], []⟩) aliasedJoinText = .ok { sql := aliasedJoinText } ∧
    rewrite (.ok ⟨[⟨"x", 1, "y"⟩], []⟩) aliasedJoinText = .error .noPartitionedTable := by
  have walked : Shape.ofQuery aliasedJoin = .ok aliasedJoinShape := rfl
  have named := referenced_table walked
  refine ⟨?_, ?_, ?_⟩
  · obtain ⟨-, -, matched⟩ :=
      @tables_matched_exactly swapped _ _ _ aliased_join_parsed walked
    obtain ⟨outcome, rewritten, -, -, substitutions, renamed⟩ :=
      matched ⟨⟨"b", 7, "a"⟩, by decide, (named "b").mp (by decide)⟩
    have first : ⟨"a", "b", 7⟩ ∈ outcome.substitutions :=
      (substitutions _).mpr ⟨(named "a").mp (by decide), rfl⟩
    have late : ⟨"a", "z", 9⟩ ∉ outcome.substitutions := fun member =>
      absurd ((substitutions _).mp member).2 (by decide)
    have bears : .table [⟨"a", none⟩] ∈
        (rewrittenQuery swapped aliasedJoinShape aliasedJoin).occurrences := by
      decide +kernel
    exact ⟨outcome, rewritten, first, late, bears, renamed _ bears _ first rfl⟩
  · refine (tables_matched_exactly aliased_join_parsed walked).2.1.mpr ?_
    simp only [← named]
    decide
  · refine (tables_matched_exactly aliased_join_parsed walked).1.mpr ?_
    simp only [← named]
    decide

end

end TripleTable.Partition
