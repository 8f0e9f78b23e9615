import TripleTable.CommandLine.Arguments
import TripleTable.CommandLine.Session
import TripleTable.Main
import TripleTable.Partition.Constraint
import TripleTable.Partition.Document
import TripleTable.Partition.Expansion
import TripleTable.Partition.Metadata
import TripleTable.Partition.Rewrite
import TripleTable.Pattern.Connectivity
import TripleTable.Pattern.DisjointSet
import TripleTable.Pattern.Extraction
import TripleTable.Pattern.Triple
import TripleTable.Plan.JoinPlan
import TripleTable.Plan.Json
import TripleTable.Plan.Projection
import TripleTable.Plan.Resolution
import TripleTable.Plan.SelectPlan
import TripleTable.Proofs.Partition.Pruning
import TripleTable.Settings.Basic
import TripleTable.Settings.EnvFile
import TripleTable.Settings.Load
import TripleTable.Shape.Basic
import TripleTable.Shape.Walk
import TripleTable.Sparql.Comment
import TripleTable.Sparql.Parse
import TripleTable.Sparql.Pattern
import TripleTable.Sparql.Query
import TripleTable.Sparql.Reader
import TripleTable.Sparql.Term
import TripleTable.Sparql.Trace
import TripleTable.Sql.Grammar.Alteration
import TripleTable.Sql.Grammar.Basic
import TripleTable.Sql.Grammar.Change
import TripleTable.Sql.Grammar.Command
import TripleTable.Sql.Grammar.Creation
import TripleTable.Sql.Grammar.DataType
import TripleTable.Sql.Grammar.Definition
import TripleTable.Sql.Grammar.Expression
import TripleTable.Sql.Grammar.Function
import TripleTable.Sql.Grammar.Literal
import TripleTable.Sql.Grammar.Maintenance
import TripleTable.Sql.Grammar.Privilege
import TripleTable.Sql.Grammar.Query
import TripleTable.Sql.Grammar.Relation
import TripleTable.Sql.Grammar.Select
import TripleTable.Sql.Grammar.Session
import TripleTable.Sql.Grammar.Transfer
import TripleTable.Sql.Keyword
import TripleTable.Sql.Nesting
import TripleTable.Sql.Parser
import TripleTable.Sql.Printer
import TripleTable.Sql.Renaming
import TripleTable.Sql.Statement
import TripleTable.Sql.Syntax
import TripleTable.Sql.Token
import TripleTable.Text.Basic
import TripleTable.Text.CharClass
import TripleTable.Text.CharTable
import TripleTable.Text.Double
import TripleTable.Text.JsonValue
import TripleTable.Text.Table
import TripleTable.Translation
import TripleTable.Yaml.BlockScalar
import TripleTable.Yaml.Cell
import TripleTable.Yaml.Document
import TripleTable.Yaml.Node
import TripleTable.Yaml.Scalar
import TripleTable.Yaml.Tag
import TripleTable.Yaml.Token
import TripleTable.Yaml.Value
import TripleTable.Proofs.Plan.Answers
import TripleTable.Proofs.Text.Names
import TripleTable.Proofs.Text.Numbers
import TripleTable.Proofs.Partition.Emission
import TripleTable.Proofs.Shape.Grouping
import TripleTable.Proofs.Shape.RenamedWalk
import TripleTable.Proofs.Partition.Idempotence
import TripleTable.Proofs.Plan.Classification
import TripleTable.Proofs.Plan.Lexing
import TripleTable.Proofs.Plan.ReadBack
import TripleTable.Proofs.Plan.Readings
import TripleTable.Proofs.Sparql.Queries
import TripleTable.Proofs.Partition.References
import TripleTable.Proofs.Partition.Attachment
import TripleTable.Proofs.Partition.Frame
import TripleTable.Proofs.Sparql.Stripping
import TripleTable.Proofs.Sparql.Unsupported
import TripleTable.Proofs.Sparql.Comments
import TripleTable.Proofs.Sparql.Progress
import TripleTable.Proofs.Partition.Relevance
import TripleTable.Proofs.Plan.Rendering
import TripleTable.Proofs.Plan.Containment
import TripleTable.Proofs.Plan.Printing
import TripleTable.Proofs.Sql.RenamedSelect
import TripleTable.Proofs.Partition.Composition
import TripleTable.Proofs.Pattern.Histories
import TripleTable.Proofs.Settings.Precedence
import TripleTable.Proofs.Partition.Ranges
import TripleTable.Proofs.Shape.Truth
import TripleTable.Proofs.Plan.Accounting
import TripleTable.Proofs.Shape.Conjunction
import TripleTable.Proofs.Partition.Conjunction
import TripleTable.Proofs.Partition.Substitution
import TripleTable.Proofs.Plan.FirstColumns
import TripleTable.Proofs.Plan.ListedVariables
import TripleTable.Proofs.Plan.LookingBack
import TripleTable.Proofs.Plan.VariableNames
import TripleTable.Proofs.Pattern.Extraction
import TripleTable.Proofs.Partition.Refusal
import TripleTable.Proofs.Partition.Disjunctions
import TripleTable.Proofs.Partition.Balance
import TripleTable.Proofs.Pattern.Ranks
import TripleTable.Proofs.Shape.SignedNumbers
