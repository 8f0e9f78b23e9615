import TripleTable.Proofs.Partition.Relevance
import TripleTable.Proofs.Partition.Rewriting
import TripleTable.Proofs.Plan.Printing
import TripleTable.Proofs.Sql.RenamedSelect
import TripleTable.Translation
set_option autoImplicit false

/-!
A planned query over partitioned tables: what rewriting makes of the statement of a plan is the
statement of the same plan over other tables. The filters of a plan compare with text or with
another column, so they select no partition.
-/
namespace TripleTable

namespace Partition

-- The first mapping of a table counts.
def Metadata.mapping? (metadata : Metadata) (table : Text) : Option TableMapping :=
  metadata.mappings.find? fun m => m.origin = table

def Metadata.targetOf (metadata : Metadata) (table : Text) : Text :=
  ((metadata.mapping? table).map TableMapping.target).getD table

end Partition

namespace Plan
open TripleTable.Partition (Metadata Attribute ExpansionError SkippedComparison)
open Sql (Renaming PlainTable PlainJoin PlainSelect)

def NumberedTable.moved (metadata : Metadata) (t : NumberedTable) : NumberedTable :=
  { t with table := metadata.targetOf t.table }

def Join.moved (metadata : Metadata) (j : Join) : Join :=
  { j with source := j.source.moved metadata }

def Filter.column : Filter → Column
  | columns c => c.left
  | constant f => f.column

-- Why a comparison with a text or with a column selects no partition.
def refusal (a : Attribute) (c : Shape.Comparison) : ExpansionError :=
  if a.floor ≤ 0 then .invalidFloor c.left.text a.floor
  else .unsupportedLiteral c.left.text c.right.text

namespace SelectPlan

def names (p : SelectPlan) : List Text := p.tables.map NumberedTable.table

-- The plan over the tables that its own are mapped to; an unmapped table stays.
def moved (metadata : Metadata) (p : SelectPlan) : SelectPlan :=
  { p with source := p.source.moved metadata, joins := p.joins.map (Join.moved metadata) }

-- The attribute that the left column of a filter is in the mapped table of its entry.
def attribute? (metadata : Metadata) (p : SelectPlan) (f : Filter) : Option Attribute := do
  let t ← p.tables[f.column.index - 1]?
  let mapping ← metadata.mapping? t.table
  metadata.attributes.find? fun a =>
    a.tableId = mapping.id ∧ a.originColumn = [f.column.role.letter]

def skipped (metadata : Metadata) (p : SelectPlan) : List SkippedComparison :=
  p.filters.filterMap fun f =>
    (p.attribute? metadata f).map fun a => ⟨f.comparison, refusal a f.comparison⟩

end SelectPlan

/-! ### The columns of a plan -/

def Filter.Within (size : Nat) : Filter → Prop
  | columns c => c.Within size
  | constant f => f.column.Within size

theorem Filter.column_within {size : Nat} {f : Filter} (within : f.Within size) :
    f.column.Within size := by
  cases f with
  | columns c => exact within.1
  | constant f => exact within

namespace SelectPlan

structure ColumnsWithin (p : SelectPlan) : Prop where
  conditions : ∀ j ∈ p.joins, ∀ c ∈ j.on, c.Within p.tables.length
  filters : ∀ f ∈ p.filters, f.Within p.tables.length

theorem arranged_within {p : SelectPlan} {q : QueryPlan} (arranged : p.Arranges q)
    (within : q.joinPlan.Within q.joinPlan.entries.length) : p.ColumnsWithin := by
  have size : p.tables.length = q.joinPlan.entries.length := by rw [arranged.tables, List.length_map]
  obtain ⟨entries, constants⟩ := within
  rw [← size] at entries constants
  constructor
  · intro j member c on
    have listed : j.on ∈ p.joins.map Join.on := List.mem_map_of_mem member
    rw [arranged.ons] at listed
    obtain ⟨entry, dropped, same⟩ := List.mem_map.mp listed
    rw [← same] at on
    obtain ⟨placed, extra⟩ := entries entry (List.mem_of_mem_drop dropped)
    rcases List.mem_append.mp on with first | other
    · exact placed c (Option.mem_toList.mp first)
    · exact extra c other
  · intro f member
    rw [arranged.filters, JoinPlan.selection] at member
    rcases List.mem_append.mp member with own | constant
    · obtain ⟨c, within, rfl⟩ := List.mem_map.mp own
      obtain ⟨root, head, extra⟩ := List.mem_flatMap.mp within
      have listed := List.mem_of_mem_head? (Option.mem_toList.mp head)
      exact (entries root listed).2 c extra
    · obtain ⟨g, listed, rfl⟩ := List.mem_map.mp constant
      exact constants g listed

section
variable {p : SelectPlan} {shape : Shape}

theorem entry_of_column {c : Column} (within : c.Within p.tables.length) :
    ∃ t ∈ p.tables, p.tables[c.index - 1]? = some t := by
  have inside : c.index - 1 < p.tables.length := by
    have bounds := within
    simp only [Column.Within] at bounds
    omega
  exact ⟨_, List.getElem_mem inside, List.getElem?_eq_getElem inside⟩

theorem shown_alias (shows : p.Shows shape) {c : Column} (within : c.Within p.tables.length)
    {t : NumberedTable} (entry : p.tables[c.index - 1]? = some t) :
    shape.aliases.find? (aliasName c.index) = some t.table :=
  (shows.aliases _ _).mpr ⟨c.index - 1, t, entry, by rw [Nat.sub_add_cancel within.1], rfl⟩

theorem column_kept (shows : p.Shows shape) {c : Column} (within : c.Within p.tables.length)
    {r : Renaming} (aliases : r.aliases = shape.aliases) : c.side.Kept r := by
  obtain ⟨t, -, entry⟩ := entry_of_column within
  have known : shape.aliases.contains (aliasName c.index) := by
    rw [NameTable.contains_find, shown_alias shows within entry]
    rfl
  rw [← aliases] at known
  exact .inl known

theorem plain_kept (shows : p.Shows shape) (columns : p.ColumnsWithin) {r : Renaming}
    (aliases : r.aliases = shape.aliases) (items : ∀ item ∈ p.items, item.column.side.Kept r) :
    p.plain.Kept r := by
  have condition : ∀ c : Condition, c.Within p.tables.length → c.equality.Kept r :=
    fun c within => ⟨column_kept shows within.1 aliases, column_kept shows within.2 aliases⟩
  constructor
  · intro side member
    obtain ⟨item, listed, rfl⟩ := List.mem_map.mp member
    exact items item listed
  · intro j member e on
    obtain ⟨join, listed, rfl⟩ := List.mem_map.mp member
    obtain ⟨c, within, rfl⟩ := List.mem_map.mp on
    exact condition c (columns.conditions join listed c within)
  · intro e member
    obtain ⟨f, listed, rfl⟩ := List.mem_map.mp member
    have within := columns.filters f listed
    cases f with
    | columns c => exact condition c within
    | constant f => exact ⟨column_kept shows within aliases, trivial⟩

theorem names_cons (p : SelectPlan) : p.names = p.source.table :: p.joins.map (·.source.table) := by
  rw [names, tables, List.map_cons, List.map_map]
  rfl

theorem renamed_moved {r : Renaming} {metadata : Metadata}
    (targets : ∀ name ∈ p.names, r.relationKey name = metadata.targetOf name) :
    p.plain.renamed r = (p.moved metadata).plain := by
  rw [names_cons] at targets
  obtain ⟨first, others⟩ := List.forall_mem_cons.mp targets
  have table : ∀ t : NumberedTable, r.relationKey t.table = metadata.targetOf t.table →
      t.plain.renamed r = (t.moved metadata).plain := by
    intro t same
    rw [NumberedTable.plain, PlainTable.renamed, same]
    rfl
  have joins : (p.joins.map Join.plain).map (PlainJoin.renamed r) =
      (p.joins.map (Join.moved metadata)).map Join.plain := by
    rw [List.map_map, List.map_map]
    refine List.map_congr_left fun j member => ?_
    have same := table j.source (others _ (List.mem_map_of_mem member))
    exact congrArg (PlainJoin.mk · (j.on.map Condition.equality)) same
  rw [PlainSelect.renamed, plain, joins, table p.source first]
  rfl

end

end SelectPlan
end Plan

namespace Partition
open Plan
open Sql (PlainSelect SoundName tokens? parseStatements)

section
variable {p : SelectPlan} {shape : Shape} {metadata : Metadata}

theorem shown_names (shows : p.Shows shape) (name : Text) : name ∈ shape.tables ↔ name ∈ p.names :=
  shows.tables name

theorem matched_mapping (metadata : Metadata) (shows : p.Shows shape) {name : Text}
    (table : name ∈ p.names) :
    (matchedMappings shape.tables metadata.mappings).find? name = metadata.mapping? name := by
  rw [matched_find, if_pos ((shown_names shows name).mpr table), Metadata.mapping?]

-- A column of no entry is renamed only if its alias is the name of a table.
theorem item_kept (shows : p.Shows shape) {c : Column}
    (within : aliasName c.index ∈ p.names → c.Within p.tables.length) :
    c.side.Kept (renamingOf metadata shape) := by
  by_cases table : aliasName c.index ∈ p.names
  · exact SelectPlan.column_kept shows (within table) rfl
  · refine .inr ((NameTable.find_map _ TableMapping.target _).trans ?_)
    rw [matched_find, if_neg (mt (shown_names shows _).mp table)]
    rfl

theorem moved_query (shows : p.Shows shape) (columns : p.ColumnsWithin)
    (items : ∀ item ∈ p.items,
      aliasName item.column.index ∈ p.names → item.column.Within p.tables.length) :
    p.plain.query.renameTables (renamingOf metadata shape) = (p.moved metadata).plain.query := by
  have targets : ∀ name ∈ p.names,
      (renamingOf metadata shape).relationKey name = metadata.targetOf name := by
    intro name table
    rw [renaming_key, matched_mapping metadata shows table, Metadata.targetOf]
  have kept := SelectPlan.plain_kept (r := renamingOf metadata shape) shows columns rfl
    fun item listed => item_kept shows (items item listed)
  rw [PlainSelect.rename_query kept, SelectPlan.renamed_moved targets]

theorem filter_unlocated (f : Filter) (floor : Int) :
    partitionOf? floor f.comparison.right = none := by
  cases f <;> rfl

theorem expand_refused {c : Shape.Comparison} {a : Attribute}
    (unlocated : partitionOf? a.floor c.right = none) (qualifier : Text) :
    expand c a qualifier = .error (refusal a c) := by
  unfold expand refusal
  split
  · rfl
  · rw [unlocated]

theorem filter_left (f : Filter) :
    f.comparison.left = ⟨some (aliasName f.column.index), [f.column.role.letter]⟩ := by
  cases f <;> rfl

theorem filter_constrained (metadata : Metadata) (shows : p.Shows shape) {f : Filter}
    (within : f.Within p.tables.length) :
    constrain? shape (matchedMappings shape.tables metadata.mappings)
        (metadata.attributesOf (metadata.matchedIds shape)) f.comparison =
      (p.attribute? metadata f).map fun a => .error (refusal a f.comparison) := by
  have column := Filter.column_within within
  obtain ⟨t, member, entry⟩ := SelectPlan.entry_of_column column
  have table : t.table ∈ p.names := List.mem_map_of_mem member
  have owned : shape.owner? f.comparison.left = some t.table := by
    simp only [Shape.owner?, filter_left, SelectPlan.shown_alias shows column entry]
  have found := matched_mapping metadata shows table
  rw [constrain?, owned, SelectPlan.attribute?, entry]
  simp only [Option.bind_eq_bind, Option.bind_some, found]
  cases mapped : metadata.mapping? t.table with
  | none => rfl
  | some mapping =>
    rw [mapped] at found
    have row := (NameTable.mem_find (matched_increasing _ _) t.table mapping).mpr found
    have listed : mapping.id ∈ metadata.matchedIds shape := List.mem_map.mpr ⟨_, row, rfl⟩
    simp only [Option.bind_some, filter_left, attribute_find metadata listed]
    cases metadata.attributes.find? fun a =>
      a.tableId = mapping.id ∧ a.originColumn = [f.column.role.letter] with
    | none => rfl
    | some a =>
      have refused := expand_refused (filter_unlocated f a.floor)
        ((shape.aliasOf? f.comparison.left t.table).getD mapping.target)
      rw [filter_left] at refused
      exact congrArg some refused

theorem filter_findings (shows : p.Shows shape) (columns : p.ColumnsWithin) :
    findings metadata shape = p.filters.filterMap fun f =>
      (p.attribute? metadata f).map fun a => (f.comparison, .error (refusal a f.comparison)) := by
  rw [findings, shows.predicates, List.filterMap_map]
  refine List.filterMap_congr fun f member => ?_
  have constrained := filter_constrained metadata shows (columns.filters f member)
  have paired := congrArg (Option.map fun finding => (f.comparison, finding)) constrained
  rw [Option.map_map] at paired
  exact paired

theorem filters_unconstrained (shows : p.Shows shape) (columns : p.ColumnsWithin) :
    constraintsOf metadata shape = [] := by
  rw [constraintsOf, filter_findings shows columns, List.filterMap_filterMap]
  refine List.filterMap_eq_nil_iff.mpr fun f _ => ?_
  cases p.attribute? metadata f <;> rfl

theorem filters_skipped (shows : p.Shows shape) (columns : p.ColumnsWithin) :
    skippedOf metadata shape = p.skipped metadata := by
  rw [skippedOf, filter_findings shows columns, List.filterMap_filterMap, SelectPlan.skipped]
  refine List.filterMap_congr fun f _ => ?_
  cases p.attribute? metadata f <;> rfl

theorem nothing_matched (shows : p.Shows shape) :
    matchedMappings shape.tables metadata.mappings = [] ↔
      ∀ m ∈ metadata.mappings, m.origin ∉ p.names := by
  rw [matched_empty]
  simp only [shown_names shows]

theorem unmapped_skipped (apart : ∀ m ∈ metadata.mappings, m.origin ∉ p.names) :
    p.skipped metadata = [] := by
  refine List.filterMap_eq_nil_iff.mpr fun f _ => ?_
  have none_found : p.attribute? metadata f = none := by
    rw [SelectPlan.attribute?]
    cases entry : p.tables[f.column.index - 1]? with
    | none => rfl
    | some t =>
      have table : t.table ∈ p.names := List.mem_map_of_mem (List.mem_of_getElem? entry)
      have unmapped : metadata.mapping? t.table = none := by
        refine List.find?_eq_none.mpr fun m member => ?_
        have other : m.origin ≠ t.table := fun same => apart m member (same ▸ table)
        simpa using other
      simp [unmapped]
  rw [none_found]
  rfl

-- What rewriting makes of the statement of a plan. Over mapped tables it is the statement of the
-- moved plan, written as that plan is exactly if the constants come through the printing. Only a
-- projected column of no entry could be taken for one of a table, by an alias of that name.
structure Rewritten (metadata : Metadata) (p : SelectPlan) (outcome : Outcome) : Prop where
  constraints : outcome.constraints = []
  skipped : outcome.skipped = p.skipped metadata
  untouched : (∀ m ∈ metadata.mappings, m.origin ∉ p.names) → outcome.sql = p.text
  moved : (∃ m ∈ metadata.mappings, m.origin ∈ p.names) →
    (∀ item ∈ p.items,
      aliasName item.column.index ∈ p.names → item.column.Within p.tables.length) →
    outcome.sql = (p.moved metadata).plain.query.text ∧
    (outcome.sql = (p.moved metadata).written true ↔ ∀ f ∈ p.filters, f.Printable) ∧
    ((∀ f ∈ p.filters, f.Printable) →
      (∀ t ∈ p.tables, SoundName (metadata.targetOf t.table)) →
      parseStatement outcome.sql = .ok (.query (p.moved metadata).plain.query))

theorem unmatched_rewritten (shows : p.Shows shape) (sql : Text)
    (apart : ∀ m ∈ metadata.mappings, m.origin ∉ p.names) :
    rewriteQuery metadata sql p.plain.query shape =
      if ∃ m ∈ metadata.mappings, m.target ∈ p.names then .ok { sql }
      else .error .noPartitionedTable := by
  rw [unmatched_outcome ((nothing_matched shows).mpr apart)]
  simp only [shown_names shows]

theorem untouched_rewritten (apart : ∀ m ∈ metadata.mappings, m.origin ∉ p.names) :
    Rewritten metadata p { sql := p.text } where
  constraints := rfl
  skipped := by rw [unmapped_skipped apart]
  untouched := fun _ => rfl
  moved := fun ⟨m, member, table⟩ => absurd table (apart m member)

theorem moved_readable (readable : p.Readable)
    (sound : ∀ t ∈ p.tables, SoundName (metadata.targetOf t.table)) :
    (p.moved metadata).Readable := by
  obtain ⟨first, others⟩ := List.forall_mem_cons.mp sound
  refine ⟨readable.items, first, fun j member => ?_, fun j member => ?_⟩
  · obtain ⟨join, listed, rfl⟩ := List.mem_map.mp member
    exact others join.source (List.mem_map_of_mem listed)
  · obtain ⟨join, listed, rfl⟩ := List.mem_map.mp member
    exact readable.placed join listed

theorem moved_printed (readable : p.Readable) :
    (p.moved metadata).plain.query.text = (p.moved metadata).written true ↔
      ∀ f ∈ p.filters, f.Printable := by
  refine SelectPlan.statement_printed fun j member => ?_
  obtain ⟨join, listed, rfl⟩ := List.mem_map.mp member
  exact readable.placed join listed

theorem matched_rewritten (shows : p.Shows shape) (columns : p.ColumnsWithin)
    (readable : p.Readable) (sql : Text) (origin : ∃ m ∈ metadata.mappings, m.origin ∈ p.names) :
    ∃ outcome, rewriteQuery metadata sql p.plain.query shape = .ok outcome ∧
      Rewritten metadata p outcome := by
  have matched : matchedMappings shape.tables metadata.mappings ≠ [] := by
    intro unmatched
    obtain ⟨m, member, table⟩ := origin
    exact (nothing_matched shows).mp unmatched m member table
  have unconstrained : constraintsOf metadata shape = [] := filters_unconstrained shows columns
  have unchanged : ∀ q, conjoin q [] = q := by
    rintro ⟨ctes, body, tail⟩
    cases body with
    | select block =>
      cases block
      simp only [conjoin, conjunction]
    | _ => rfl
  rw [matched_outcome matched]
  refine ⟨_, rfl, unconstrained, filters_skipped shows columns, fun apart => ?_, fun _ items => ?_⟩
  · obtain ⟨m, member, table⟩ := origin
    exact absurd table (apart m member)
  · simp only [rewrittenQuery, List.isEmpty_iff, if_neg matched, unconstrained, List.map_nil,
      unchanged, moved_query shows columns items]
    refine ⟨trivial, moved_printed readable, fun printable sound => ?_⟩
    rw [(moved_printed readable).mpr printable]
    exact SelectPlan.parse_written true (moved_readable readable sound)

end

theorem planned_statement_rewritten (triples : List Pattern.Triple) (joinPlan : JoinPlan)
    (distinct : Bool) (projection : List ProjectionItem) (metadata : Metadata)
    (resolved : resolve triples = .ok joinPlan) (inhabited : projection ≠ [])
    (sound : ∀ t ∈ triples, ∀ name ∈ t.table?, SoundName name) :
    ∃ p, SelectPlan.ofQueryPlan ⟨distinct, projection, joinPlan⟩ = .ok p ∧
      p.Arranges ⟨distinct, projection, joinPlan⟩ ∧
      (rewrite (.ok metadata) p.text = .error .noPartitionedTable ↔
        ∀ m ∈ metadata.mappings, m.origin ∉ p.names ∧ m.target ∉ p.names) ∧
      ((∃ m ∈ metadata.mappings, m.origin ∈ p.names ∨ m.target ∈ p.names) →
        ∃ outcome, rewrite (.ok metadata) p.text = .ok outcome ∧ Rewritten metadata p outcome) := by
  obtain ⟨placed, -, is_placed, -⟩ := resolve_placed resolved
  obtain ⟨p, made, arranged⟩ :=
    resolved_arranged (q := ⟨distinct, projection, joinPlan⟩) resolved inhabited
  have readable := arranged.readable inhabited (arranged_names arranged resolved sound)
  obtain ⟨shape, walked, shows⟩ := p.numbered_shape arranged.numbered
  have columns := SelectPlan.arranged_within arranged is_placed.within
  refine ⟨p, made, arranged, ?_⟩
  rw [rewrite_walked (SelectPlan.parse_text readable) walked]
  by_cases origin : ∃ m ∈ metadata.mappings, m.origin ∈ p.names
  · obtain ⟨outcome, accepted, rewritten⟩ := matched_rewritten shows columns readable p.text origin
    rw [accepted]
    refine ⟨⟨(nomatch ·), fun apart => ?_⟩, fun _ => ⟨outcome, rfl, rewritten⟩⟩
    obtain ⟨m, member, table⟩ := origin
    exact absurd table (apart m member).1
  · have apart : ∀ m ∈ metadata.mappings, m.origin ∉ p.names := by simpa using origin
    rw [unmatched_rewritten shows p.text apart]
    by_cases target : ∃ m ∈ metadata.mappings, m.target ∈ p.names
    · rw [if_pos target]
      refine ⟨⟨(nomatch ·), fun absent => ?_⟩, fun _ => ⟨_, rfl, untouched_rewritten apart⟩⟩
      obtain ⟨m, member, table⟩ := target
      exact absurd table (absent m member).2
    · rw [if_neg target]
      refine ⟨⟨fun _ m member => ?_, fun _ => rfl⟩, fun known => ?_⟩
      · exact ⟨apart m member, fun table => target ⟨m, member, table⟩⟩
      · obtain ⟨m, member, table | table⟩ := known
        · exact absurd table (apart m member)
        · exact absurd ⟨m, member, table⟩ target

section
-- A table joined with itself whose name is an alias of the plan. Both of its filters compare a
-- column that the store takes for a partition attribute.
def twoRoles : List Pattern.Triple := [
  ⟨.variable "x", .constant "t1", .variable "x"⟩,
  ⟨.variable "x", .constant "t1", .constant "it's"⟩]

def twoRolesPlan : JoinPlan where
  entries := [
    ⟨"t1", 1, none, [⟨⟨1, .subject⟩, ⟨1, .object⟩⟩]⟩,
    ⟨"t1", 2, some ⟨⟨1, .subject⟩, ⟨2, .subject⟩⟩, []⟩]
  filters := [⟨⟨2, .object⟩, "it's"⟩]
  bindings := [("x", ⟨1, .subject⟩)]

def twoRolesSelect : SelectPlan where
  distinct := false
  items := [⟨"x", ⟨1, .subject⟩⟩]
  source := ⟨"t1", 1⟩
  joins := [⟨⟨"t1", 2⟩, [⟨⟨1, .subject⟩, ⟨2, .subject⟩⟩]⟩]
  filters := [.columns ⟨⟨1, .subject⟩, ⟨1, .object⟩⟩, .constant ⟨⟨2, .object⟩, "it's"⟩]

def splitStore : Metadata :=
  ⟨[⟨"t1", 1, "shard"⟩], [⟨1, "s", "part", 0⟩, ⟨1, "o", "part", 5⟩]⟩

theorem two_roles_rewritten :
    ∃ outcome,
      rewrite (.ok splitStore) ("select t1.s from t1 t1 join t1 t2 on t1.s = t2.s " ++
        "where t1.s = t1.o and t2.o = 'it''s'") = .ok outcome ∧
      outcome.constraints = [] ∧
      outcome.skipped = [
        ⟨⟨⟨some "t1", "s"⟩, .eq, .identifier "t1.o"⟩, .invalidFloor "t1.s" 0⟩,
        ⟨⟨⟨some "t2", "o"⟩, .eq, .string "it's"⟩, .unsupportedLiteral "t2.o" "'it''s'"⟩] ∧
      outcome.sql = "SELECT t1.s FROM shard AS t1 JOIN shard AS t2 ON t1.s = t2.s " ++
        "WHERE t1.s = t1.o AND t2.o = 'it''s'" ∧
      parseStatement outcome.sql =
        .ok (.query (twoRolesSelect.moved splitStore).plain.query) := by
  have resolved : resolve twoRoles = .ok twoRolesPlan := by decide +kernel
  have sound : ∀ t ∈ twoRoles, ∀ name ∈ t.table?, SoundName name := by decide +kernel
  obtain ⟨p, made, -, -, accepted⟩ := planned_statement_rewritten twoRoles twoRolesPlan false
    [⟨"x", ⟨1, .subject⟩⟩] splitStore resolved (by decide) sound
  obtain rfl : twoRolesSelect = p := Except.ok.inj made
  have origin : ∃ m ∈ splitStore.mappings, m.origin ∈ twoRolesSelect.names :=
    ⟨_, .head _, by decide⟩
  obtain ⟨m, member, table⟩ := origin
  obtain ⟨outcome, rewritten, follows⟩ := accepted ⟨m, member, .inl table⟩
  have within : ∀ item ∈ twoRolesSelect.items,
      aliasName item.column.index ∈ twoRolesSelect.names →
        item.column.Within twoRolesSelect.tables.length := by
    unfold Column.Within
    decide
  obtain ⟨text, -, read⟩ := follows.moved ⟨m, member, table⟩ within
  have printable : ∀ f ∈ twoRolesSelect.filters, f.Printable := by decide
  have targets : ∀ t ∈ twoRolesSelect.tables, SoundName (splitStore.targetOf t.table) := by
    decide +kernel
  refine ⟨outcome, ?_, follows.constraints, follows.skipped, ?_, read printable targets⟩
  · rw [← rewritten]
    exact congrArg (rewrite (.ok splitStore)) (by decide +kernel)
  · rw [text]
    decide +kernel

def quotesQuery : Text := "SELECT ?x WHERE \x7b ?x <p> \"a''b\" \x7d"

def backslashQuery : Text := "SELECT ?x WHERE \x7b ?x <p> \"a\\'b\" \x7d"

def comparedPlan (literal : Text) : SelectPlan where
  distinct := false
  items := [⟨"x", ⟨1, .subject⟩⟩]
  source := ⟨"p", 1⟩
  joins := []
  filters := [.constant ⟨⟨1, .object⟩, literal⟩]

def replacedStore : Metadata := ⟨[⟨"p", 1, "q"⟩], []⟩

theorem compared_plan_rewritten (literal : Text) :
    ∃ outcome, rewrite (.ok replacedStore) (comparedPlan literal).text = .ok outcome ∧
      outcome.sql = ((comparedPlan literal).moved replacedStore).plain.query.text := by
  have single : ∀ t ∈ (comparedPlan literal).tables, SoundName t.table := by
    have name : SoundName "p" := by decide +kernel
    simpa [SelectPlan.tables, comparedPlan] using name
  have readable : (comparedPlan literal).Readable :=
    ⟨List.cons_ne_nil _ _, single _ (.head _), by simp [comparedPlan], by simp [comparedPlan]⟩
  have columns : (comparedPlan literal).ColumnsWithin :=
    ⟨by simp [comparedPlan],
      by simp [comparedPlan, SelectPlan.tables, Filter.Within, Column.Within]⟩
  obtain ⟨shape, walked, shows⟩ := (comparedPlan literal).numbered_shape rfl
  have origin : ∃ m ∈ replacedStore.mappings, m.origin ∈ (comparedPlan literal).names :=
    ⟨_, .head _, .head _⟩
  obtain ⟨outcome, accepted, rewritten⟩ :=
    matched_rewritten shows columns readable (comparedPlan literal).text origin
  refine ⟨outcome, ?_, (rewritten.moved origin ?_).1⟩
  · rw [rewrite_walked (SelectPlan.parse_text readable) walked, accepted]
  · simp [comparedPlan, SelectPlan.tables, Column.Within]

def comparedTokens (more : List Sql.Token) : List Sql.Token :=
  [plainWord "SELECT", plainWord "t1", .symbol ".", plainWord "s", plainWord "FROM", plainWord "q",
    plainWord "AS", plainWord "t1", plainWord "WHERE", plainWord "t1", .symbol ".", plainWord "o",
    .symbol "="] ++ more

-- Two apostrophes of a literal come out as one, and one behind a backslash ends the string.
set_option maxRecDepth 10000 in
theorem printing_loses_apostrophes :
    (∃ t outcome shape, translate quotesQuery = .ok t ∧ t.plan = comparedPlan "a''b" ∧
      rewrite (.ok replacedStore) t.sql = .ok outcome ∧
      outcome.sql = "SELECT t1.s FROM q AS t1 WHERE t1.o = 'a''b'" ∧
      walk outcome.sql = .ok shape ∧
      shape.predicates = [⟨⟨some "t1", "o"⟩, .eq, .string "a'b"⟩]) ∧
    ∃ t outcome, translate backslashQuery = .ok t ∧ t.plan = comparedPlan "a\\'b" ∧
      rewrite (.ok replacedStore) t.sql = .ok outcome ∧
      parseStatement outcome.sql = .error .invalidSql := by
  refine ⟨?halved, ?ended⟩
  case halved =>
    have translated : translate quotesQuery =
        .ok ⟨(comparedPlan "a''b").text, comparedPlan "a''b"⟩ := by
      decide +kernel
    obtain ⟨outcome, rewritten, printed⟩ := compared_plan_rewritten "a''b"
    have text : outcome.sql = "SELECT t1.s FROM q AS t1 WHERE t1.o = 'a''b'" := by
      rw [printed]
      decide +kernel
    have lexed : tokens? "SELECT t1.s FROM q AS t1 WHERE t1.o = 'a''b'" =
        some (comparedTokens [.string "a'b"]) := by
      decide +kernel
    refine ⟨_, outcome, ⟨["t1.s"], ["q"], [("t1", "q")], [⟨⟨some "t1", "o"⟩, .eq, .string "a'b"⟩]⟩,
      translated, rfl, rewritten, text, ?_, rfl⟩
    rw [text, walk, parseStatement, parseStatements, lexed]
    rfl
  case ended =>
    have translated : translate backslashQuery =
        .ok ⟨(comparedPlan "a\\'b").text, comparedPlan "a\\'b"⟩ := by
      decide +kernel
    obtain ⟨outcome, rewritten, printed⟩ := compared_plan_rewritten "a\\'b"
    have text : outcome.sql = "SELECT t1.s FROM q AS t1 WHERE t1.o = 'a\\'b'" := by
      rw [printed]
      decide +kernel
    have unlexed : tokens? "SELECT t1.s FROM q AS t1 WHERE t1.o = 'a\\'b'" = none := by
      decide +kernel
    refine ⟨_, outcome, translated, rfl, rewritten, ?_⟩
    rw [text, parseStatement, parseStatements, unlexed]
    rfl

end
end Partition
end TripleTable
