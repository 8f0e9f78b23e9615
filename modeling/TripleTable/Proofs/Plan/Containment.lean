import TripleTable.Proofs.Plan.ReadBack
import TripleTable.Proofs.Plan.Rendering
set_option autoImplicit false

/-!
What a query can put into its statement. Its literals and constants stay strings, whatever they
hold, and the statement is the one that its plan denotes, as long as the table names, which are
written bare, are read as names.
-/
namespace TripleTable.Plan
open Sql

section
variable {s : Text} {t : Translation}

theorem translated_plan (translated : translate s = .ok t) :
    ∃ plan, planQuery s = .ok plan ∧ SelectPlan.ofQueryPlan plan = .ok t.plan ∧
      t.sql = t.plan.text := by
  cases planned : planQuery s with
  | error reason =>
    rw [translate, planned] at translated
    cases translated
  | ok plan =>
    rw [translate_planned planned] at translated
    cases arranged : SelectPlan.ofQueryPlan plan with
    | error reason =>
      rw [arranged] at translated
      cases translated
    | ok p =>
      rw [arranged] at translated
      cases translated
      exact ⟨plan, rfl, arranged, rfl⟩

theorem translated_arranged (translated : translate s = .ok t) :
    ∃ plan, planQuery s = .ok plan ∧ plan.projection ≠ [] ∧ t.plan.Arranges plan := by
  obtain ⟨plan, planned, made, -⟩ := translated_plan translated
  have inhabited : plan.projection ≠ [] := by
    intro empty
    rw [missing_items empty] at made
    cases made
  obtain ⟨q, -, resolved, -⟩ := planned_read planned
  obtain ⟨p, same, arranged⟩ := resolved_arranged resolved inhabited
  rw [made] at same
  cases same
  exact ⟨plan, planned, inhabited, arranged⟩

end

-- The statement is the plan's own, with every constant a string of it, and its walk shows the
-- plan's tables under t1, t2 and so on.
theorem translation_contained (s : Text) (t : Translation) (translated : translate s = .ok t)
    (sound : ∀ table ∈ t.plan.tables, SoundName table.table) :
    Partition.parseStatement t.sql = .ok (.query t.plan.plain.query) ∧
      ∃ shape, Partition.walk t.sql = .ok shape ∧ t.plan.Shows shape ∧
        t.plan.tables.map NumberedTable.index = List.range' 1 t.plan.tables.length := by
  obtain ⟨plan, -, inhabited, arranged⟩ := translated_arranged translated
  obtain ⟨-, -, -, written⟩ := translated_plan translated
  have parsed : Partition.parseStatement t.sql = .ok (.query t.plan.plain.query) := by
    rw [written]
    exact SelectPlan.parse_text (arranged.readable inhabited sound)
  obtain ⟨shape, walked, shows⟩ := t.plan.numbered_shape arranged.numbered
  refine ⟨parsed, shape, ?_, shows, arranged.numbered⟩
  rw [Partition.walk, parsed]
  show (Shape.ofQuery t.plan.plain.query).mapError _ = _
  rw [walked]
  rfl

section
-- A keyword and a name in a schema, and constants with the marks of strings and of comments.
def awkwardQuery : Text :=
  "SELECT ?x WHERE \x7b <#'--> <#select> ?x . ?x <#a.b> \"'; drop table a --\" \x7d"

def awkwardPlan : SelectPlan where
  distinct := false
  items := [⟨"x", ⟨1, .object⟩⟩]
  source := ⟨"select", 1⟩
  joins := [⟨⟨"a.b", 2⟩, [⟨⟨1, .object⟩, ⟨2, .subject⟩⟩]⟩]
  filters := [.constant ⟨⟨1, .subject⟩, "#'--"⟩, .constant ⟨⟨2, .object⟩, "'; drop table a --"⟩]

theorem awkward_query_contained :
    translate awkwardQuery = .ok ⟨awkwardPlan.text, awkwardPlan⟩ ∧
      Partition.parseStatement awkwardPlan.text = .ok (.query awkwardPlan.plain.query) ∧
      ∃ shape, Partition.walk awkwardPlan.text = .ok shape ∧ awkwardPlan.Shows shape ∧
        awkwardPlan.tables.map NumberedTable.index = List.range' 1 awkwardPlan.tables.length := by
  have translated : translate awkwardQuery = .ok ⟨awkwardPlan.text, awkwardPlan⟩ := by
    decide +kernel
  have sound : ∀ table ∈ awkwardPlan.tables, SoundName table.table := by decide +kernel
  have contained :=
    translation_contained awkwardQuery ⟨awkwardPlan.text, awkwardPlan⟩ translated sound
  exact ⟨translated, contained⟩

def singlePlan (table : Text) : SelectPlan where
  distinct := false
  items := [⟨"x", ⟨1, .subject⟩⟩]
  source := ⟨table, 1⟩
  joins := []
  filters := []

def subjectTokens (more : List Token) : List Token :=
  nameToken "select" :: nameToken "t1" :: .symbol "." :: nameToken "s" :: nameToken "from" :: more

-- A fragment with a statement of its own, and a comment that hides what is behind it.
def stackedQuery : Text := "SELECT ?x WHERE \x7b ?x <#p/**/t1;drop/**/table/**/p--> ?y \x7d"

def unnamedQuery : Text := "SELECT ?x WHERE \x7b ?x <http://e/p#> ?y \x7d"

def listedQuery : Text := "SELECT ?x WHERE \x7b ?x <#p,secret> ?y \x7d"

set_option maxRecDepth 10000 in
theorem fragments_break_out :
    (∃ t, translate stackedQuery = .ok t ∧
      Partition.parseStatement t.sql = .error (.malformed (.statementCount 2))) ∧
    (∃ t shape, translate unnamedQuery = .ok t ∧ t.plan = singlePlan "" ∧
      Partition.walk t.sql = .ok shape ∧ shape.tables = ["t1"] ∧ shape.aliases = []) ∧
    ∃ t shape, translate listedQuery = .ok t ∧ t.plan = singlePlan "p,secret" ∧
      Partition.walk t.sql = .ok shape ∧ shape.tables = ["p", "secret"] := by
  refine ⟨?stacked, ?unnamed, ?listed⟩
  case stacked =>
    have translated : translate stackedQuery =
        .ok ⟨"select t1.s from p/**/t1;drop/**/table/**/p-- t1",
          singlePlan "p/**/t1;drop/**/table/**/p--"⟩ := by
      decide +kernel
    have lexed : tokens? "select t1.s from p/**/t1;drop/**/table/**/p-- t1" =
        some (subjectTokens [nameToken "p", nameToken "t1", .symbol ";", nameToken "drop",
          nameToken "table", nameToken "p"]) := by
      decide +kernel
    refine ⟨_, translated, ?_⟩
    rw [Partition.parseStatement, parseStatements, lexed]
    rfl
  case unnamed =>
    have translated : translate unnamedQuery =
        .ok ⟨"select t1.s from  t1", singlePlan ""⟩ := by
      decide +kernel
    have lexed : tokens? "select t1.s from  t1" = some (subjectTokens [nameToken "t1"]) := by
      decide +kernel
    refine ⟨_, ⟨["t1.s"], ["t1"], [], []⟩, translated, rfl, ?_, rfl, rfl⟩
    rw [Partition.walk, Partition.parseStatement, parseStatements, lexed]
    rfl
  case listed =>
    have translated : translate listedQuery =
        .ok ⟨"select t1.s from p,secret t1", singlePlan "p,secret"⟩ := by
      decide +kernel
    have lexed : tokens? "select t1.s from p,secret t1" =
        some (subjectTokens [nameToken "p", .symbol ",", nameToken "secret", nameToken "t1"]) := by
      decide +kernel
    refine ⟨_, ⟨["t1.s"], ["p", "secret"], [("t1", "secret")], []⟩, translated, rfl, ?_, rfl⟩
    rw [Partition.walk, Partition.parseStatement, parseStatements, lexed]
    rfl

end

end TripleTable.Plan
