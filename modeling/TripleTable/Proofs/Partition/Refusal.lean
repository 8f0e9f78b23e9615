import TripleTable.Proofs.Partition.Idempotence
import TripleTable.Proofs.Sql.InnerQueries
set_option autoImplicit false

/-!
Queries that hold other queries are refused, and so is their rewriting, whatever the metadata. What
is accepted is one SELECT block over tables and joins of tables. Only the rows of ARRAY, and what
stands among them without being a value, are overlooked.
-/
namespace TripleTable

namespace Shape
open Sql

mutual

theorem leaves_of_tables (source : Source) :
    source.OfTables ↔ ∀ relation ∈ leaves source, (tableKey? relation).isSome := by
  obtain ⟨relation, joins⟩ := source
  rw [leaves, List.forall_mem_append, ← relation_of_tables relation, ← joins_of_tables joins]
  rfl

theorem joins_of_tables (joins : List Join) :
    JoinsOfTables joins ↔ ∀ relation ∈ joinLeaves joins, (tableKey? relation).isSome := by
  cases joins with
  | nil => simp [JoinsOfTables, joinLeaves]
  | cons join rest =>
    obtain ⟨kind, relation, constraint⟩ := join
    rw [joinLeaves, List.forall_mem_append, ← relation_of_tables relation, ← joins_of_tables rest]
    rfl

theorem relation_of_tables (relation : Relation) :
    relation.OfTables ↔ ∀ leaf ∈ relationLeaves relation, (tableKey? leaf).isSome := by
  obtain ⟨factor, aliased, hints⟩ := relation
  cases factor with
  | nested inner => exact leaves_of_tables inner
  | _ => simp [Relation.OfTables, Factor.OfTables, relationLeaves, tableKey?]

end

theorem accepted_query {q : Query} {shape : Shape} (walked : ofQuery q = .ok shape) :
    ∃ block tail, q = ⟨[], .select block, tail⟩ ∧ (∀ source ∈ block.sources, source.OfTables) ∧
      ∀ way ∈ q.ways, way.head? = some .kept ∧ .value ∉ way := by
  obtain ⟨ctes, body, tail⟩ := q
  obtain ⟨simple, rfl, block, rfl, block_walked⟩ := of_query.mp walked
  have relations := (of_select.mp block_walked).1
  have tables : ∀ source ∈ block.sources, source.OfTables := fun source member =>
    (leaves_of_tables source).mpr fun relation leaf =>
      relations relation (List.mem_flatMap.mpr ⟨source, member, leaf⟩)
  have parts := simple
  simp only [Query.hasSubquery, Bool.or_eq_false_iff] at parts
  have kept : AllKept (Query.ways ⟨[], .select block, tail⟩) :=
    (block.all_kept tables parts.1.2).append (parts_all_kept tail parts.2)
  exact ⟨block, tail, rfl, tables, fun way member =>
    ⟨kept way member, Query.valueless _ simple way member⟩⟩

end Shape

namespace Partition
open Sql

theorem walk_refused {sql : Text} {statement : Statement} {defect : ShapeDefect}
    (parsed : parseStatement sql = .ok statement)
    (refused : Shape.ofStatement statement = .error defect) :
    walk sql = .error (.malformed defect) ∧
      ∀ metadata, rewrite metadata sql = .error (.malformed defect) := by
  have mapped : (Shape.ofStatement statement).mapError RewriteError.malformed =
      .error (.malformed defect) := by
    rw [refused]
    rfl
  refine ⟨?_, fun metadata => ?_⟩
  · rw [walk, parsed]
    exact mapped
  · rw [rewrite, parsed]
    simp only [bind, Except.bind, mapped]

-- A statement in which a query stands below the outermost one, anywhere but among the rows of
-- ARRAY, is refused, and there too if it is a value. What is accepted is one block over tables.
theorem inner_queries_refused (statement : Statement) :
    (∀ way ∈ statement.ways, way.head? ≠ some .kept ∨ .value ∈ way →
      ∃ defect, Shape.ofStatement statement = .error defect ∧
        ∀ sql, parseStatement sql = .ok statement →
          walk sql = .error (.malformed defect) ∧
            ∀ metadata, rewrite metadata sql = .error (.malformed defect)) ∧
      ∀ shape, Shape.ofStatement statement = .ok shape →
        ∃ block tail, statement = .query ⟨[], .select block, tail⟩ ∧
          (∀ source ∈ block.sources, source.OfTables) ∧
          ∀ way ∈ statement.ways, way.head? = some .kept ∧ .value ∉ way := by
  have accepted : ∀ shape, Shape.ofStatement statement = .ok shape →
      ∃ block tail, statement = .query ⟨[], .select block, tail⟩ ∧
        (∀ source ∈ block.sources, source.OfTables) ∧
        ∀ way ∈ statement.ways, way.head? = some .kept ∧ .value ∉ way := by
    intro shape walked
    cases statement with
    | command kind => cases walked
    | query q =>
      obtain ⟨block, tail, rfl, tables, ways⟩ := Shape.accepted_query walked
      exact ⟨block, tail, rfl, tables, ways⟩
  refine ⟨fun way member seen => ?_, accepted⟩
  cases walked : Shape.ofStatement statement with
  | error defect => exact ⟨defect, rfl, fun sql parsed => walk_refused parsed walked⟩
  | ok shape =>
    obtain ⟨_, _, _, _, hidden⟩ := accepted shape walked
    obtain ⟨kept, valueless⟩ := hidden way member
    rcases seen with apart | value
    · exact absurd kept apart
    · exact absurd value valueless

section
def plainTable (name : String) : Relation := ⟨.table [⟨name, none⟩] [], none, []⟩

def plainColumn (qualifier name : String) : Expr := .path [⟨qualifier, none⟩, ⟨name, none⟩]

-- One column of one table.
def columnQuery (table name : String) : Query :=
  ⟨[], .select ⟨[], [.parts [.operand (plainColumn table name)]], [], [⟨plainTable table, []⟩], [],
    none, []⟩, [.words []]⟩

def columnTokens (table name : String) : List Token :=
  [plainWord "select", plainWord table, .symbol ".", plainWord name, plainWord "from",
    plainWord table]

-- A derived table within a join in parentheses.
def derivedWithin : Query :=
  let inner : Source :=
    ⟨plainTable "a", [⟨" JOIN ", ⟨.derived false (columnQuery "b" "y"), some ⟨⟨"s", none⟩, []⟩, []⟩,
      [.words " ON ", .operand (.binary (plainColumn "a" "x") (.compare .eq) (plainColumn "s" "y"))]⟩]⟩
  ⟨[], .select ⟨[], [.parts [.words "*"]], [], [⟨⟨.nested inner, none, []⟩, []⟩], [], none, []⟩,
    [.words []]⟩

def derivedText : Text :=
  "select * from (a join (select b.y from b) as s on a.x = s.y)"

set_option maxRecDepth 10000 in
theorem derived_parsed : parseStatement derivedText = .ok (.query derivedWithin) := by
  have lexed : tokens? derivedText =
      some ([plainWord "select", .symbol "*", plainWord "from", .symbol "(", plainWord "a",
        plainWord "join", .symbol "("] ++ columnTokens "b" "y" ++ [.symbol ")", plainWord "as",
        plainWord "s", plainWord "on", plainWord "a", .symbol ".", plainWord "x", .symbol "=",
        plainWord "s", .symbol ".", plainWord "y", .symbol ")"]) := by
    decide +kernel
  rw [parseStatement, parseStatements, lexed]
  rfl

theorem derived_within_refused :
    derivedWithin.ways = [[.table]] ∧ (∃ defect, ∀ metadata,
      rewrite metadata derivedText = .error (.malformed defect)) ∧
      ∃ block tail, columnQuery "b" "y" = ⟨[], .select block, tail⟩ ∧
        ∀ source ∈ block.sources, source.OfTables := by
  refine ⟨by decide, ?_, ?_⟩
  · obtain ⟨defect, _, refused⟩ := (inner_queries_refused (.query derivedWithin)).1 [.table]
      (by decide) (.inl (by decide))
    exact ⟨defect, (refused derivedText derived_parsed).2⟩
  · have walked : Shape.ofStatement (.query (columnQuery "b" "y")) =
        .ok { projection := ["b.y"], tables := ["b"] } := rfl
    obtain ⟨block, tail, same, tables, _⟩ :=
      (inner_queries_refused (.query (columnQuery "b" "y"))).2 _ walked
    exact ⟨block, tail, Statement.query.inj same, tables⟩

-- The rows of ARRAY are overlooked, and the tables within are renamed.
def arrayOfRows : Query :=
  ⟨[], .select ⟨[], [.parts [.operand (.form
    [.words "ARRAY(", .query (columnQuery "tbl" "fid"), .words ")"])]], [],
    [⟨plainTable "tbl", []⟩], [], none, []⟩, [.words []]⟩

def arrayText : Text := "select array(select tbl.fid from tbl) from tbl"

set_option maxRecDepth 10000 in
theorem array_parsed : parseStatement arrayText = .ok (.query arrayOfRows) := by
  have lexed : tokens? arrayText =
      some ([plainWord "select", plainWord "array", .symbol "("] ++ columnTokens "tbl" "fid" ++
        [.symbol ")", plainWord "from", plainWord "tbl"]) := by
    decide +kernel
  rw [parseStatement, parseStatements, lexed]
  rfl

theorem array_rows_overlooked :
    parseStatement arrayText = .ok (.query arrayOfRows) ∧ arrayOfRows.ways = [[.kept]] ∧
      ∃ outcome, rewrite (.ok ⟨[⟨"tbl", 1, "tbl2"⟩], []⟩) arrayText = .ok outcome ∧
        outcome.sql = "SELECT ARRAY(SELECT tbl2.fid FROM tbl2) FROM tbl2".toList :=
  ⟨array_parsed, by decide,
    _, rewrite_accepted.mpr ⟨_, _, array_parsed, rfl, rfl⟩, by decide +kernel⟩

end

end Partition
end TripleTable
