import TripleTable.Pattern.Extraction
import TripleTable.Plan.Resolution
import TripleTable.Plan.SelectPlan
import TripleTable.Sparql.Comment
import TripleTable.Sparql.Parse
set_option autoImplicit false

/-!
Translation of a SPARQL SELECT query into one SQL statement over the tables of its predicates.
-/
namespace TripleTable
open Pattern (Defect)
open Plan

inductive TranslateError where
  | malformed (defect : Defect)
  | unresolved (token : Text)
  | parse (trace : Sparql.Trace)
  | render (error : RenderError)
deriving DecidableEq, Repr

namespace TranslateError

def message : TranslateError → Text
  | malformed defect => "Malformed pattern: " ++ defect.message
  | unresolved token =>
    "Unresolved projection: variable '" ++ token ++ "' is not bound in the graph pattern"
  | parse trace => "SPARQL parse error:\n" ++ trace.message
  | render error => "Render error: " ++ error.message

def chain : TranslateError → List Text
  | render error => [message (render error), error.message]
  | e => [e.message]

def ofProjection : ProjectionError → TranslateError
  | .missingSelectWhere => malformed .missingSelectWhere
  | .unbound token => unresolved token

end TranslateError

structure Translation where
  sql : Text
  plan : SelectPlan
deriving DecidableEq, Repr

-- Plans a query: its pattern is joined, and its projection read from its text.
def planQuery (s : Text) : Except TranslateError QueryPlan := do
  let s := Sparql.stripComments s
  let query ← (Sparql.parseQuery s).mapError .parse
  let joinPlan ← (resolve (Pattern.ofGroup query.prologue query.pattern)).mapError .malformed
  let projection ← (readProjection s joinPlan.bindings).mapError .ofProjection
  return { distinct := query.modifier = some .distinct, projection, joinPlan }

def translate (s : Text) : Except TranslateError Translation := do
  let plan ← planQuery s
  let plan ← (SelectPlan.ofQueryPlan plan).mapError .render
  return { sql := plan.text, plan }

end TripleTable
