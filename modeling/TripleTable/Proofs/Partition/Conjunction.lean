import TripleTable.Proofs.Partition.Rewriting
import TripleTable.Proofs.Shape.Conjunction
set_option autoImplicit false

/-!
Rewriting under a conjunction: every comparison is looked up and expanded by itself, so what is
found for both sides together is what is found for the one and then what is found for the other.
-/
namespace TripleTable.Partition
open Sql
open Shape (Comparison withCondition Rearranged comparisons)

-- What a rewriting makes of a query, once its text is parsed.
def rewriteTree (metadata : Metadata) (sql : Text) (q : Query) : Except RewriteError Outcome := do
  let shape ← (Shape.ofQuery q).mapError .malformed
  rewriteQuery metadata sql q shape

theorem rewrite_tree_walked {metadata : Metadata} {sql : Text} {q : Query} {shape : Shape}
    (walked : Shape.ofQuery q = .ok shape) :
    rewriteTree metadata sql q = rewriteQuery metadata sql q shape := by
  rw [rewriteTree, walked]
  rfl

theorem rewrite_tree_accepted {metadata : Metadata} {sql : Text} {q : Query} {outcome : Outcome} :
    rewriteTree metadata sql q = .ok outcome ↔
      ∃ shape, Shape.ofQuery q = .ok shape ∧ rewriteQuery metadata sql q shape = .ok outcome := by
  cases walked : Shape.ofQuery q with
  | error defect =>
    rw [rewriteTree, walked]
    constructor
    · intro accepted
      cases accepted
    · intro accepted
      obtain ⟨shape, read, -⟩ := accepted
      cases read
  | ok shape => simp [rewrite_tree_walked walked]

theorem rewrite_parsed {metadata : Metadata} {sql : Text} {q : Query}
    (parsed : parseStatement sql = .ok (.query q)) :
    rewrite (.ok metadata) sql = rewriteTree metadata sql q := by
  unfold rewrite rewriteTree
  rw [parsed]
  rfl

theorem rewrite_reads_store {store : Except MetadataError Metadata} {sql : Text}
    {outcome : Outcome} (rewritten : rewrite store sql = .ok outcome) :
    ∃ metadata, store = .ok metadata := by
  cases store with
  | ok metadata => exact ⟨metadata, rfl⟩
  | error reason =>
    unfold rewrite at rewritten
    cases parsed : parseStatement sql with
    | error refusal =>
      rw [parsed] at rewritten
      cases rewritten
    | ok statement =>
      rw [parsed] at rewritten
      cases walked : (Shape.ofStatement statement).mapError RewriteError.malformed with
      | error defect => simp [walked, bind, Except.bind] at rewritten
      | ok shape =>
        simp only [walked, bind, Except.bind] at rewritten
        cases rewritten

-- The outcome of a conjunction beside those of its two sides.
structure Composes (left right both : Outcome) : Prop where
  left_substitutions : both.substitutions = left.substitutions
  right_substitutions : both.substitutions = right.substitutions
  constraints : both.constraints = left.constraints ++ right.constraints
  skipped : both.skipped = left.skipped ++ right.skipped

section
variable (metadata : Metadata) (base : Shape) (front back : List Comparison)

theorem findings_append :
    findings metadata { base with predicates := front ++ back } =
      findings metadata { base with predicates := front } ++
        findings metadata { base with predicates := back } :=
  List.filterMap_append

theorem constraints_append :
    constraintsOf metadata { base with predicates := front ++ back } =
      constraintsOf metadata { base with predicates := front } ++
        constraintsOf metadata { base with predicates := back } := by
  rw [constraintsOf, findings_append, List.filterMap_append]
  rfl

theorem skipped_append :
    skippedOf metadata { base with predicates := front ++ back } =
      skippedOf metadata { base with predicates := front } ++
        skippedOf metadata { base with predicates := back } := by
  rw [skippedOf, findings_append, List.filterMap_append]
  rfl

end

-- Which tables are matched does not depend on the comparisons.
theorem rewrite_query_composes {metadata : Metadata} {base : Shape} {front back : List Comparison}
    {first second : Text} {q other : Query} {left right : Outcome}
    (here : rewriteQuery metadata first q { base with predicates := front } = .ok left)
    (there : rewriteQuery metadata second other { base with predicates := back } = .ok right)
    (whole : Text) (joined : Query) :
    ∃ both, rewriteQuery metadata whole joined { base with predicates := front ++ back } =
      .ok both ∧ Composes left right both := by
  have known := rewrite_query_succeeds.mp ⟨left, here⟩
  obtain ⟨both, rewritten⟩ : ∃ both, rewriteQuery metadata whole joined
      { base with predicates := front ++ back } = .ok both := rewrite_query_succeeds.mpr known
  obtain ⟨substitutions, constraints, skipped⟩ := outcome_fields rewritten
  obtain ⟨left_substitutions, left_constraints, left_skipped⟩ := outcome_fields here
  obtain ⟨right_substitutions, right_constraints, right_skipped⟩ := outcome_fields there
  refine ⟨both, rewritten, substitutions.trans left_substitutions.symm,
    substitutions.trans right_substitutions.symm, ?_, ?_⟩
  · rw [constraints, left_constraints, right_constraints, constraints_append]
  · rw [skipped, left_skipped, right_skipped, skipped_append]

section
variable {q : Query} {base : Shape} (plain : Shape.ofQuery (withCondition q none) = .ok base)
  {a b : Expr} (simple_a : a.hasSubquery = false) (simple_b : b.hasSubquery = false)
  {first second whole : Text} {left right : Outcome}

include plain simple_a simple_b

theorem rewrite_tree_composes {metadata : Metadata}
    (here : rewriteTree metadata first (withCondition q (some a)) = .ok left)
    (there : rewriteTree metadata second (withCondition q (some b)) = .ok right) :
    ∃ both, rewriteTree metadata whole (withCondition q (some (.binary a .and b))) = .ok both ∧
      Composes left right both := by
  obtain ⟨shape, walked, rewritten⟩ := rewrite_tree_accepted.mp here
  obtain ⟨other, walked_other, rewritten_other⟩ := rewrite_tree_accepted.mp there
  obtain ⟨front, -, rfl⟩ := (Shape.condition_accepted plain simple_a).mp walked
  obtain ⟨back, -, rfl⟩ := (Shape.condition_accepted plain simple_b).mp walked_other
  obtain ⟨both, joined, composes⟩ := rewrite_query_composes rewritten rewritten_other whole
    (withCondition q (some (.binary a .and b)))
  refine ⟨both, rewrite_tree_accepted.mpr ⟨_, ?_, joined⟩, composes⟩
  exact (Shape.conjunction_accepted plain simple_a simple_b).mpr
    ⟨_, _, walked, walked_other, rfl⟩

theorem rewrite_composes {store : Except MetadataError Metadata}
    (parsed : parseStatement first = .ok (.query (withCondition q (some a))))
    (parsed_other : parseStatement second = .ok (.query (withCondition q (some b))))
    (parsed_whole : parseStatement whole =
      .ok (.query (withCondition q (some (.binary a .and b)))))
    (here : rewrite store first = .ok left) (there : rewrite store second = .ok right) :
    ∃ both, rewrite store whole = .ok both ∧ Composes left right both := by
  obtain ⟨metadata, rfl⟩ := rewrite_reads_store here
  rw [rewrite_parsed parsed] at here
  rw [rewrite_parsed parsed_other] at there
  rw [rewrite_parsed parsed_whole]
  exact rewrite_tree_composes plain simple_a simple_b here there

end

-- The same walk gives the same outcome, up to the text that is written.
theorem rewrite_tree_alike {metadata : Metadata} {q other : Query} {first : Text} {left : Outcome}
    (same : Shape.ofQuery other = Shape.ofQuery q)
    (rewritten : rewriteTree metadata first q = .ok left) (second : Text) :
    ∃ right, rewriteTree metadata second other = .ok right ∧
      right.substitutions = left.substitutions ∧ right.constraints = left.constraints ∧
      right.skipped = left.skipped := by
  obtain ⟨shape, walked, accepted⟩ := rewrite_tree_accepted.mp rewritten
  obtain ⟨right, again⟩ : ∃ right, rewriteQuery metadata second other shape = .ok right :=
    rewrite_query_succeeds.mpr (rewrite_query_succeeds.mp ⟨left, accepted⟩)
  obtain ⟨substitutions, constraints, skipped⟩ := outcome_fields accepted
  obtain ⟨again_substitutions, again_constraints, again_skipped⟩ := outcome_fields again
  exact ⟨right, rewrite_tree_accepted.mpr ⟨shape, same.trans walked, again⟩,
    again_substitutions.trans substitutions.symm, again_constraints.trans constraints.symm,
    again_skipped.trans skipped.symm⟩

theorem conjunction_composes {q : Query} {base : Shape}
    (plain : Shape.ofQuery (withCondition q none) = .ok base) :
    (∀ a b : Expr, a.hasSubquery = false → b.hasSubquery = false →
      (∀ shape, Shape.ofQuery (withCondition q (some (.binary a .and b))) = .ok shape ↔
        ∃ left right, Shape.ofQuery (withCondition q (some a)) = .ok left ∧
          Shape.ofQuery (withCondition q (some b)) = .ok right ∧
          shape = { base with predicates := left.predicates ++ right.predicates }) ∧
      (∀ defect, Shape.ofQuery (withCondition q (some (.binary a .and b))) = .error defect ↔
        Shape.ofQuery (withCondition q (some a)) = .error defect ∨
          (∃ left, Shape.ofQuery (withCondition q (some a)) = .ok left) ∧
            Shape.ofQuery (withCondition q (some b)) = .error defect) ∧
      (∀ metadata first second whole left right,
        rewriteTree metadata first (withCondition q (some a)) = .ok left →
        rewriteTree metadata second (withCondition q (some b)) = .ok right →
        ∃ both, rewriteTree metadata whole (withCondition q (some (.binary a .and b))) = .ok both ∧
          Composes left right both) ∧
      ∀ store first second whole left right,
        parseStatement first = .ok (.query (withCondition q (some a))) →
        parseStatement second = .ok (.query (withCondition q (some b))) →
        parseStatement whole = .ok (.query (withCondition q (some (.binary a .and b)))) →
        rewrite store first = .ok left → rewrite store second = .ok right →
        ∃ both, rewrite store whole = .ok both ∧ Composes left right both) ∧
    ∀ e other : Expr, e.hasSubquery = false → Rearranged e other →
      Shape.ofQuery (withCondition q (some other)) = Shape.ofQuery (withCondition q (some e)) ∧
      ∀ metadata first second left,
        rewriteTree metadata first (withCondition q (some e)) = .ok left →
        ∃ right, rewriteTree metadata second (withCondition q (some other)) = .ok right ∧
          right.substitutions = left.substitutions ∧ right.constraints = left.constraints ∧
          right.skipped = left.skipped := by
  refine ⟨fun a b simple_a simple_b => ⟨fun shape => ?_, fun defect => ?_, ?_, ?_⟩, ?_⟩
  · exact Shape.conjunction_accepted plain simple_a simple_b
  · exact Shape.conjunction_refused plain simple_a simple_b
  · intro metadata first second whole left right here there
    exact rewrite_tree_composes plain simple_a simple_b here there
  · intro store first second whole left right parsed parsed_other parsed_whole here there
    exact rewrite_composes plain simple_a simple_b parsed parsed_other parsed_whole here there
  · intro e other simple same
    have walked := Shape.rearranged_walked plain simple same
    exact ⟨walked, fun metadata first second left rewritten =>
      rewrite_tree_alike walked rewritten second⟩

section
-- A bound from below beside the one from above: it selects no partition and is skipped.
def aboveBound : Expr := .binary (.number "5" false) (.compare .lt) (.column ⟨"fid", none⟩)

def aboveShape : Shape :=
  { boundShape with predicates := [⟨⟨none, "fid"⟩, .gt, .integer 5⟩] }

set_option maxRecDepth 10000 in
theorem above_parsed :
    parseStatement "SELECT * FROM tbl WHERE 5 < fid" =
      .ok (.query (wholeTable "tbl" aboveBound)) := by
  have lexed : tokens? "SELECT * FROM tbl WHERE 5 < fid" = some [plainWord "SELECT", .symbol "*",
      plainWord "FROM", plainWord "tbl", plainWord "WHERE", .number "5" false, .symbol "<",
      plainWord "fid"] := by
    decide +kernel
  rw [parseStatement, parseStatements, lexed]
  rfl

set_option maxRecDepth 10000 in
theorem between_parsed :
    parseStatement "SELECT * FROM tbl WHERE fid < 60000 AND 5 < fid" =
      .ok (.query (wholeTable "tbl" (.binary belowBound .and aboveBound))) := by
  have lexed : tokens? "SELECT * FROM tbl WHERE fid < 60000 AND 5 < fid" = some [
      plainWord "SELECT", .symbol "*", plainWord "FROM", plainWord "tbl", plainWord "WHERE",
      plainWord "fid", .symbol "<", .number "60000" false, plainWord "AND", .number "5" false,
      .symbol "<", plainWord "fid"] := by
    decide +kernel
  rw [parseStatement, parseStatements, lexed]
  rfl

theorem bounds_composed :
    ∃ left right both,
      rewrite (.ok shards) "SELECT * FROM tbl WHERE fid < 60000" = .ok left ∧
      rewrite (.ok shards) "SELECT * FROM tbl WHERE 5 < fid" = .ok right ∧
      rewrite (.ok shards) "SELECT * FROM tbl WHERE fid < 60000 AND 5 < fid" = .ok both ∧
      left.constraints.length = 1 ∧ right.skipped.length = 1 ∧ Composes left right both := by
  obtain ⟨left, here, constrained⟩ : ∃ left,
      rewrite (.ok shards) "SELECT * FROM tbl WHERE fid < 60000" = .ok left ∧
        left.constraints.length = 1 :=
    ⟨_, rewrite_accepted.mpr ⟨_, boundShape, bound_parsed, rfl, rfl⟩, by decide +kernel⟩
  obtain ⟨right, there, skipped⟩ : ∃ right,
      rewrite (.ok shards) "SELECT * FROM tbl WHERE 5 < fid" = .ok right ∧
        right.skipped.length = 1 :=
    ⟨_, rewrite_accepted.mpr ⟨_, aboveShape, above_parsed, rfl, rfl⟩, by decide +kernel⟩
  have plain : Shape.ofQuery (withCondition (wholeTable "tbl" belowBound) none) =
      .ok { boundShape with predicates := [] } := rfl
  have composes := conjunction_composes plain
  obtain ⟨both, joined, composed⟩ := (composes.1 belowBound aboveBound rfl rfl).2.2.2 _ _ _ _ left
    right bound_parsed above_parsed between_parsed here there
  exact ⟨left, right, both, here, there, joined, constrained, skipped, composed⟩

end

end TripleTable.Partition
