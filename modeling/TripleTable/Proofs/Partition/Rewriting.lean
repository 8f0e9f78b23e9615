import TripleTable.Proofs.Partition.Idempotence
set_option autoImplicit false

/-!
The statement that a rewriting gives, and the statement that its text is read back as.
-/
namespace TripleTable.Partition
open Sql

-- The statement that stands in the text of the outcome.
def rewrittenQuery (metadata : Metadata) (shape : Shape) (q : Query) : Query :=
  if (matchedMappings shape.tables metadata.mappings).isEmpty then q
  else
    conjoin (q.renameTables (renamingOf metadata shape))
      ((constraintsOf metadata shape).map Constraint.expr)

-- Either no table was matched and the query stands as it was, or its text was written anew.
theorem rewritten_outcome {metadata : Metadata} {sql : Text} {q : Query} {shape : Shape}
    {outcome : Outcome} (rewritten : rewriteQuery metadata sql q shape = .ok outcome) :
    (matchedMappings shape.tables metadata.mappings = [] ∧ outcome = { sql } ∧
      rewrittenQuery metadata shape q = q) ∨
    (outcome.substitutions ≠ [] ∧ outcome.sql = (rewrittenQuery metadata shape q).text ∧
      outcome.constraints = constraintsOf metadata shape ∧
      rewrittenQuery metadata shape q =
        conjoin (q.renameTables (renamingOf metadata shape))
          ((constraintsOf metadata shape).map Constraint.expr)) := by
  unfold rewriteQuery at rewritten
  unfold rewrittenQuery
  by_cases unmatched : (matchedMappings shape.tables metadata.mappings).isEmpty
  · rw [if_pos unmatched] at rewritten ⊢
    split at rewritten
    · exact .inl ⟨List.isEmpty_iff.mp unmatched, (Except.ok.inj rewritten).symm, rfl⟩
    · cases rewritten
  · rw [if_neg unmatched] at rewritten ⊢
    obtain rfl := Except.ok.inj rewritten
    exact .inr ⟨by simpa using unmatched, rfl, rfl, rfl⟩

def substitutionsOf (metadata : Metadata) (shape : Shape) : List Substitution :=
  (matchedMappings shape.tables metadata.mappings).map fun (_, m) => ⟨m.origin, m.target, m.id⟩

section
variable {metadata : Metadata} {shape : Shape}

-- A comparison is looked up by way of the mapping of its table.
theorem unmatched_findings (unmatched : matchedMappings shape.tables metadata.mappings = []) :
    findings metadata shape = [] := by
  refine List.filterMap_eq_nil_iff.mpr fun c _ => ?_
  simp [constrain?, unmatched, NameTable.find?]

theorem unmatched_outcome (unmatched : matchedMappings shape.tables metadata.mappings = [])
    (sql : Text) (q : Query) :
    rewriteQuery metadata sql q shape =
      if ∃ m ∈ metadata.mappings, m.target ∈ shape.tables then .ok { sql }
      else .error .noPartitionedTable := by
  have known : (metadata.mappings.any fun m => shape.tables.contains m.target) ↔
      ∃ m ∈ metadata.mappings, m.target ∈ shape.tables := by simp
  unfold rewriteQuery
  simp only [unmatched, known, List.isEmpty_nil, if_true]

theorem matched_outcome (matched : matchedMappings shape.tables metadata.mappings ≠ [])
    (sql : Text) (q : Query) :
    rewriteQuery metadata sql q shape = .ok {
      sql := (rewrittenQuery metadata shape q).text
      substitutions := substitutionsOf metadata shape
      constraints := constraintsOf metadata shape
      skipped := skippedOf metadata shape } := by
  have inhabited : ¬ (matchedMappings shape.tables metadata.mappings).isEmpty := by
    simpa using matched
  unfold rewriteQuery rewrittenQuery
  rw [if_neg inhabited, if_neg inhabited]
  rfl

theorem rewrite_query_succeeds {sql : Text} {q : Query} :
    (∃ outcome, rewriteQuery metadata sql q shape = .ok outcome) ↔
      ∃ m ∈ metadata.mappings, m.origin ∈ shape.tables ∨ m.target ∈ shape.tables := by
  by_cases origin : ∃ m ∈ metadata.mappings, m.origin ∈ shape.tables
  · obtain ⟨m, member, table⟩ := origin
    have matched : matchedMappings shape.tables metadata.mappings ≠ [] := fun none_matched =>
      matched_empty.mp none_matched m member table
    rw [matched_outcome matched]
    exact iff_of_true ⟨_, rfl⟩ ⟨m, member, .inl table⟩
  · have apart : ∀ m ∈ metadata.mappings, m.origin ∉ shape.tables := by simpa using origin
    rw [unmatched_outcome (matched_none apart)]
    by_cases target : ∃ m ∈ metadata.mappings, m.target ∈ shape.tables
    · obtain ⟨m, member, table⟩ := target
      rw [if_pos ⟨m, member, table⟩]
      exact iff_of_true ⟨_, rfl⟩ ⟨m, member, .inr table⟩
    · rw [if_neg target]
      refine iff_of_false (by simp) fun known => ?_
      obtain ⟨m, member, either⟩ := known
      exact either.elim (apart m member) fun table => target ⟨m, member, table⟩

-- What an outcome holds beside its text is read off the metadata and the shape.
theorem outcome_fields {sql : Text} {q : Query} {outcome : Outcome}
    (rewritten : rewriteQuery metadata sql q shape = .ok outcome) :
    outcome.substitutions = substitutionsOf metadata shape ∧
      outcome.constraints = constraintsOf metadata shape ∧
      outcome.skipped = skippedOf metadata shape := by
  by_cases unmatched : matchedMappings shape.tables metadata.mappings = []
  · rw [unmatched_outcome unmatched] at rewritten
    split at rewritten
    · obtain rfl := Except.ok.inj rewritten
      rw [substitutionsOf, constraintsOf, skippedOf, unmatched_findings unmatched, unmatched]
      exact ⟨rfl, rfl, rfl⟩
    · cases rewritten
  · rw [matched_outcome unmatched] at rewritten
    obtain rfl := Except.ok.inj rewritten
    exact ⟨rfl, rfl, rfl⟩

end

theorem unmatched_targets {metadata : Metadata} {shape : Shape}
    (unmatched : matchedMappings shape.tables metadata.mappings = []) :
    (renamingOf metadata shape).targets = [] := by
  rw [renamingOf, unmatched]
  rfl

theorem regrouped_body {q other : Query} {block : Select}
    (same : Shape.QueryRegrouped q other) (body : q.body = .select block) :
    ∃ selection, other = { q with body := .select { block with selection := selection } } ∧
      Option.Rel Shape.Regrouped block.selection selection := by
  obtain ⟨ctes, qbody, tail⟩ := q
  cases body
  rcases same with rfl | ⟨found, condition, grouped, found_body, selection, regrouped, rfl⟩
  · obtain ⟨head, projection, target, sources, views, selection, after⟩ := block
    refine ⟨selection, rfl, ?_⟩
    cases selection with
    | none => exact .none
    | some condition => exact .some (.refl condition)
  · cases found_body
    refine ⟨some grouped, rfl, ?_⟩
    rw [selection]
    exact .some regrouped

-- The text of a changed query is read back as the renamed block behind a condition that ends with
-- the constraints.
theorem read_back {metadata : Metadata} {sql : Text} {q again : Query} {shape : Shape}
    {block : Select} {outcome : Outcome}
    (rewritten : rewriteQuery metadata sql q shape = .ok outcome)
    (changed : outcome.substitutions ≠ []) (walked : Shape.ofQuery q = .ok shape)
    (body : q.body = .select block)
    (parsed_again : parseStatement (emitted metadata shape q).text = .ok (.query again))
    (grouped : Shape.QueryRegrouped (emitted metadata shape q) again) :
    outcome.constraints = constraintsOf metadata shape ∧
    parseStatement outcome.sql = .ok (.query again) ∧ (∃ next, Shape.ofQuery again = .ok next) ∧
      ∃ selection,
        again = { q.renameTables (renamingOf metadata shape) with
          body := .select { Shape.renamedBlock (renamingOf metadata shape) block with selection } } ∧
        Option.Rel Shape.Regrouped
          (conjunction (Shape.renamedBlock (renamingOf metadata shape) block).selection
            (outcome.constraints.map Constraint.condition)) selection := by
  rcases rewritten_outcome rewritten with ⟨-, rfl, -⟩ | ⟨-, text, constraints, conjoined⟩
  · exact absurd rfl changed
  obtain ⟨next, walked_next, -⟩ := emitted_walked metadata walked
  have emits : emitted metadata shape q = { q.renameTables (renamingOf metadata shape) with
      body := .select { Shape.renamedBlock (renamingOf metadata shape) block with
        selection := conjunction (Shape.renamedBlock (renamingOf metadata shape) block).selection
          ((constraintsOf metadata shape).map Constraint.condition) } } :=
    conjoin_select (Shape.rename_tables_body _ body) _
  obtain ⟨selection, same, regrouped⟩ := regrouped_body grouped (by rw [emits])
  refine ⟨constraints, ?_, ⟨next, Shape.regrouped_of_query grouped walked_next⟩, selection, ?_, ?_⟩
  · rw [text, conjoined, ← emitted_text, parsed_again]
  · rw [same, emits]
  · rw [constraints]
    exact regrouped

end TripleTable.Partition
