import TripleTable.Partition.Expansion
import TripleTable.Shape.Walk
import TripleTable.Sql.Renaming
import TripleTable.Sql.Statement
set_option autoImplicit false

/-!
Rewriting of a query over partitioned tables: the tables are replaced by those that keep their
rows, and what the comparisons say about partitions is added to the condition.
-/
namespace TripleTable.Partition
open Sql
open Shape (Comparison)

inductive RewriteError where
  | malformed (defect : ShapeDefect)
  | noPartitionedTable
  | invalidSql
  | metadata (error : MetadataError)
deriving DecidableEq, Repr

namespace RewriteError

def message : RewriteError → Text
  | malformed defect => "Malformed SQL shape: " ++ defect.message
  | noPartitionedTable => "No partitioned table is referenced by the query"
  | invalidSql => "SQL parse error"
  | metadata error => "Metadata store error: " ++ error.message

def chain : RewriteError → List Text
  | metadata error => message (metadata error) :: error.chain
  | e => [e.message]

end RewriteError

def parseStatement (sql : Text) : Except RewriteError Statement :=
  match parseStatements sql with
  | none => .error .invalidSql
  | some [statement] => .ok statement
  | some statements => .error (.malformed (.statementCount statements.length))

def walk (sql : Text) : Except RewriteError Shape := do
  (Shape.ofStatement (← parseStatement sql)).mapError .malformed

structure Substitution where
  origin : Text
  target : Text
  id : Int
deriving DecidableEq, Repr

structure SkippedComparison where
  comparison : Comparison
  reason : ExpansionError
deriving Repr

def SkippedComparison.text (s : SkippedComparison) : Text :=
  s.comparison.text ++ ": " ++ s.reason.message

structure Outcome where
  sql : Text
  substitutions : List Substitution := []
  constraints : List Constraint := []
  skipped : List SkippedComparison := []
deriving Repr

def matchedMappings (tables : List Text) (mappings : List TableMapping) : NameTable TableMapping :=
  mappings.foldl (fun matched m =>
    if m.origin ∈ tables then matched.insertNew m.origin m else matched) []

-- What a comparison of a partitioned column implies; nothing for other columns.
def constrain? (shape : Shape) (matched : NameTable TableMapping) (attributes : List Attribute)
    (c : Comparison) : Option (Except ExpansionError (Option Constraint)) := do
  let table ← shape.owner? c.left
  let mapping ← matched.find? table
  let column ← attributes.find? fun a =>
    a.tableId = mapping.id ∧ a.originColumn = c.left.column
  return expand c column ((shape.aliasOf? c.left table).getD mapping.target)

-- What the comparisons of columns that select a partition imply, in order.
def findings (metadata : Metadata) (shape : Shape) :
    List (Comparison × Except ExpansionError (Option Constraint)) :=
  let matched := matchedMappings shape.tables metadata.mappings
  let attributes := metadata.attributesOf (matched.map fun (_, m) => m.id)
  shape.predicates.filterMap fun c =>
    (constrain? shape matched attributes c).map fun finding => (c, finding)

def constraintsOf (metadata : Metadata) (shape : Shape) : List Constraint :=
  (findings metadata shape).filterMap fun (_, finding) =>
    match finding with
    | .ok constraint => constraint
    | .error _ => none

def skippedOf (metadata : Metadata) (shape : Shape) : List SkippedComparison :=
  (findings metadata shape).filterMap fun (c, finding) =>
    match finding with
    | .ok _ => none
    | .error reason => some ⟨c, reason⟩

-- The tables of a query that are replaced, and the aliases that hide their names.
def renamingOf (metadata : Metadata) (shape : Shape) : Renaming :=
  ⟨(matchedMappings shape.tables metadata.mappings).map fun (origin, m) => (origin, m.target),
    shape.aliases⟩

def conjunction : Option Expr → List Expr → Option Expr
  | selection, [] => selection
  | none, added :: rest => conjunction (some added) rest
  | some condition, added :: rest => conjunction (some (.binary condition .and added)) rest

def conjoin (q : Query) (conditions : List Expr) : Query :=
  match q.body with
  | .select block =>
    { q with body := .select { block with selection := conjunction block.selection conditions } }
  | _ => q

-- Rewrites a query of a known shape. A query that names only tables that keep rows of others is
-- left as it is.
def rewriteQuery (metadata : Metadata) (sql : Text) (q : Query) (shape : Shape) :
    Except RewriteError Outcome :=
  let matched := matchedMappings shape.tables metadata.mappings
  if matched.isEmpty then
    if metadata.mappings.any fun m => shape.tables.contains m.target then .ok { sql }
    else .error .noPartitionedTable
  else
    let constraints := constraintsOf metadata shape
    let renamed := q.renameTables (renamingOf metadata shape)
    .ok {
      sql := (conjoin renamed (constraints.map Constraint.expr)).text
      substitutions := matched.map fun (_, m) => ⟨m.origin, m.target, m.id⟩
      constraints
      skipped := skippedOf metadata shape }

-- Rewrites an SQL text by what the metadata says, once the text is known to have a shape.
def rewrite (metadata : Except MetadataError Metadata) (sql : Text) :
    Except RewriteError Outcome := do
  let statement ← parseStatement sql
  let shape ← (Shape.ofStatement statement).mapError .malformed
  let metadata ← metadata.mapError .metadata
  match statement with
  | .query q => rewriteQuery metadata sql q shape
  | .command kind => throw (.malformed (.notASelect kind))

end TripleTable.Partition
