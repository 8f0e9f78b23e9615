import TripleTable.Proofs.Partition.Emission
import TripleTable.Proofs.Partition.Matching
import TripleTable.Proofs.Shape.Grouping
set_option autoImplicit false

/-!
Rewriting a rewritten query changes nothing, as long as no table that keeps the rows of others has
its own rows kept elsewhere.
-/
namespace TripleTable.Partition
open Sql

theorem rewrite_walked {metadata : Metadata} {sql : Text} {q : Query} {shape : Shape}
    (parsed : parseStatement sql = .ok (.query q)) (walked : Shape.ofQuery q = .ok shape) :
    rewrite (.ok metadata) sql = rewriteQuery metadata sql q shape := by
  have shaped : (Shape.ofStatement (.query q)).mapError RewriteError.malformed = .ok shape := by
    rw [Shape.ofStatement, walked]
    rfl
  have known : (Except.ok metadata).mapError RewriteError.metadata = .ok metadata := rfl
  rw [rewrite, parsed]
  simp only [bind, Except.bind, shaped, known]

theorem rewrite_accepted {metadata : Metadata} {sql : Text} {outcome : Outcome} :
    rewrite (.ok metadata) sql = .ok outcome ↔
      ∃ q shape, parseStatement sql = .ok (.query q) ∧ Shape.ofQuery q = .ok shape ∧
        rewriteQuery metadata sql q shape = .ok outcome := by
  cases parsed : parseStatement sql with
  | error reason => simp [rewrite, parsed, bind, Except.bind]
  | ok statement =>
    cases statement with
    | command kind =>
      rw [rewrite, parsed]
      constructor
      · intro accepted
        cases accepted
      · rintro ⟨q, shape, query, -⟩
        cases query
    | query q =>
      cases walked : Shape.ofQuery q with
      | error defect =>
        have refused : (Shape.ofStatement (.query q)).mapError RewriteError.malformed =
            .error (.malformed defect) := by
          rw [Shape.ofStatement, walked]
          rfl
        simp [rewrite, parsed, bind, Except.bind, refused, walked]
      | ok shape =>
        rw [rewrite_walked parsed walked]
        simp [walked]

theorem constraints_readable {metadata : Metadata} {shape : Shape} :
    ∀ c ∈ constraintsOf metadata shape, c.Readable := by
  intro c member
  obtain ⟨comparison, among⟩ := constraint_finding member
  obtain ⟨table, mapping, -, -, a, -, expanded⟩ := finding_found among
  exact expand_readable expanded

-- The statement that a rewriting emits, as the tree its text is read back as. It is the query
-- renamed and constrained, with the grouping of its condition lost.
def emitted (metadata : Metadata) (shape : Shape) (q : Query) : Query :=
  conjoin (q.renameTables (renamingOf metadata shape))
    ((constraintsOf metadata shape).map Constraint.condition)

theorem emitted_text (metadata : Metadata) (shape : Shape) (q : Query) :
    (emitted metadata shape q).text =
      (conjoin (q.renameTables (renamingOf metadata shape))
        ((constraintsOf metadata shape).map Constraint.expr)).text := by
  refine conjoin_text _ ?_
  simp only [List.map_map]
  exact List.map_congr_left fun c _ => condition_text c

theorem emitted_walked (metadata : Metadata) {shape : Shape} {q : Query}
    (walked : Shape.ofQuery q = .ok shape) :
    ∃ next, Shape.ofQuery (emitted metadata shape q) = .ok next ∧
      ∀ key, key ∈ next.tables ↔
        ∃ old ∈ shape.tables, (renamingOf metadata shape).relationKey old = key := by
  let r := renamingOf metadata shape
  let conditions := (constraintsOf metadata shape).map Constraint.condition
  obtain ⟨subquery, ctes, block, body, block_walked⟩ := Shape.of_query.mp walked
  obtain ⟨renamed, renamed_walked, tables⟩ := Shape.renamed_block_walked r block_walked
  have readable : ∀ e ∈ conditions, ∃ list, Shape.comparisons e = .ok list :=
    List.forall_mem_map.mpr fun c member => condition_comparisons (constraints_readable c member)
  obtain ⟨list, conjoined⟩ := conjoined_walked renamed_walked readable
  have emits := conjoin_select (Shape.rename_tables_body r body) conditions
  have simple : (emitted metadata shape q).hasSubquery = false := by
    refine conjoin_subquery ((rename_tables_subquery r q).trans subquery) ?_
    exact List.forall_mem_map.mpr fun c _ => condition_subquery c
  refine ⟨{ renamed with predicates := list }, Shape.of_query.mpr ⟨simple, ?_, _, ?_, conjoined⟩,
    tables⟩
  · rw [emitted, emits]
    exact Shape.rename_tables_ctes r ctes
  · rw [emitted, emits]

-- The second run meets only renamed tables, which no mapping begins with, and only constraints
-- in the place of comparisons, which it cannot expand again.
theorem rewrite_idempotent (metadata : Metadata) (sql : Text) (outcome : Outcome)
    (apart : ∀ m ∈ metadata.mappings, ∀ n ∈ metadata.mappings, m.target ≠ n.origin)
    (rewritten : rewrite (.ok metadata) sql = .ok outcome)
    (reads_back : outcome.substitutions ≠ [] → ∀ q shape,
      parseStatement sql = .ok (.query q) → Shape.ofQuery q = .ok shape →
      ∃ again, parseStatement (emitted metadata shape q).text = .ok (.query again) ∧
        Shape.QueryRegrouped (emitted metadata shape q) again) :
    rewrite (.ok metadata) outcome.sql = .ok { sql := outcome.sql } := by
  obtain ⟨q, shape, parsed, walked, query⟩ := rewrite_accepted.mp rewritten
  unfold rewriteQuery at query
  by_cases matched : (matchedMappings shape.tables metadata.mappings).isEmpty
  · -- A query that was left alone is its own result.
    rw [if_pos matched] at query
    split at query
    · obtain rfl := Except.ok.inj query
      exact rewritten
    · cases query
  · rw [if_neg matched] at query
    obtain rfl := Except.ok.inj query
    rw [List.isEmpty_iff] at matched
    obtain ⟨again, parsed_again, grouped⟩ :=
      reads_back (by simpa using matched) q shape parsed walked
    obtain ⟨next, walked_next, tables⟩ := emitted_walked metadata walked
    rw [emitted_text] at parsed_again
    refine rewrite_accepted.mpr
      ⟨again, next, parsed_again, Shape.regrouped_of_query grouped walked_next, ?_⟩
    have unmatched : matchedMappings next.tables metadata.mappings = [] := by
      refine matched_none fun m member origin => ?_
      obtain ⟨old, table, same⟩ := (tables m.origin).mp origin
      exact renamed_not_origin apart table m member same.symm
    obtain ⟨key, table, m, member, found⟩ := matched_some matched
    have target : m.target ∈ next.tables := by
      refine (tables m.target).mpr ⟨key, table, ?_⟩
      rw [renaming_key, found]
      rfl
    have known : (metadata.mappings.any fun m => next.tables.contains m.target) = true :=
      List.any_eq_true.mpr ⟨m, member, by simpa using target⟩
    rw [rewriteQuery, unmatched, known]
    rfl

section
-- One table over partitions of 20000 numbers, and a query for the numbers below 60000.
def shards : Metadata := ⟨[⟨"tbl", 1, "shard"⟩], [⟨1, "fid", "part", 20000⟩]⟩

def wholeTable (table : String) (condition : Expr) : Query :=
  ⟨[], .select ⟨[], [.parts [.words "*"]], [], [⟨⟨.table [⟨table, none⟩] [], none, []⟩, []⟩], [],
    some condition, []⟩, [.words []]⟩

def belowBound : Expr := .binary (.column ⟨"fid", none⟩) (.compare .lt) (.number "60000" false)

def boundShape : Shape where
  projection := ["*"]
  tables := ["tbl"]
  predicates := [⟨⟨none, "fid"⟩, .lt, .integer 60000⟩]

def plainWord (s : String) : Token := .word ⟨s, none⟩

def partTokens (n : String) : List Token :=
  [plainWord "shard", .symbol ".", plainWord "part", .symbol "=", .number n false]

theorem bound_parsed :
    parseStatement "SELECT * FROM tbl WHERE fid < 60000" =
      .ok (.query (wholeTable "tbl" belowBound)) := by
  have lexed : tokens? "SELECT * FROM tbl WHERE fid < 60000" = some [plainWord "SELECT",
      .symbol "*", plainWord "FROM", plainWord "tbl", plainWord "WHERE", plainWord "fid",
      .symbol "<", .number "60000" false] := by
    decide +kernel
  rw [parseStatement, parseStatements, lexed]
  rfl

def part (n : Int) : Expr := spelled "shard.part" n

theorem bound_emitted :
    emitted shards boundShape (wholeTable "tbl" belowBound) =
      wholeTable "shard" (.binary belowBound .and
        (.nested (.binary (part 0) .or (.binary (part 1) .or (part 2))))) := by
  have constraints : constraintsOf shards boundShape = [⟨"shard.part", [0, 1, 2]⟩] := by
    decide +kernel
  have condition : Constraint.condition ⟨"shard.part", [0, 1, 2]⟩ =
      .nested (.binary (part 0) .or (.binary (part 1) .or (part 2))) := by
    simp [Constraint.condition, disjunction?, part]
  rw [emitted, constraints, List.map_singleton, condition]
  rfl

set_option maxRecDepth 10000 in
theorem parts_parsed :
    parseStatement (emitted shards boundShape (wholeTable "tbl" belowBound)).text =
      .ok (.query (wholeTable "shard" (.binary belowBound .and
        (.nested (.binary (.binary (part 0) .or (part 1)) .or (part 2)))))) := by
  have lexed : tokens? (emitted shards boundShape (wholeTable "tbl" belowBound)).text =
      some ([plainWord "SELECT", .symbol "*", plainWord "FROM", plainWord "shard",
        plainWord "WHERE", plainWord "fid", .symbol "<", .number "60000" false, plainWord "AND",
        .symbol "("] ++ partTokens "0" ++ [plainWord "OR"] ++ partTokens "1" ++
        [plainWord "OR"] ++ partTokens "2" ++ [.symbol ")"]) := by
    decide +kernel
  rw [parseStatement, parseStatements, lexed]
  rfl

theorem bounded_query_rewritten_once :
    ∃ outcome, rewrite (.ok shards) "SELECT * FROM tbl WHERE fid < 60000" = .ok outcome ∧
      outcome.substitutions ≠ [] ∧
      rewrite (.ok shards) outcome.sql = .ok { sql := outcome.sql } := by
  have walked : Shape.ofQuery (wholeTable "tbl" belowBound) = .ok boundShape := rfl
  obtain ⟨outcome, rewritten, changed⟩ : ∃ outcome,
      rewrite (.ok shards) "SELECT * FROM tbl WHERE fid < 60000" = .ok outcome ∧
        outcome.substitutions ≠ [] :=
    ⟨_, rewrite_accepted.mpr ⟨_, _, bound_parsed, walked, rfl⟩, by decide⟩
  refine ⟨outcome, rewritten, changed,
    rewrite_idempotent shards _ outcome (by decide) rewritten fun _ q shape parsed again => ?_⟩
  rw [bound_parsed] at parsed
  obtain rfl := Statement.query.inj (Except.ok.inj parsed)
  obtain rfl := Except.ok.inj (walked.symm.trans again)
  refine ⟨_, parts_parsed, ?_⟩
  rw [bound_emitted]
  refine .inr ⟨_, _, _, rfl, rfl, ?_, rfl⟩
  -- The three equalities are emitted grouped to the right and read back grouped to the left.
  exact .connective (.inl rfl) (.refl _) (.nested (.rotate _ _ _ (.inr rfl)))

end

end TripleTable.Partition
