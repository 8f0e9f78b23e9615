import TripleTable.Plan.SelectPlan
import TripleTable.Text.JsonValue
set_option autoImplicit false

/-!
Select plans as JSON values.
-/
namespace TripleTable.Plan

def Role.json : Role → JsonValue
  | subject => .string "Subject"
  | object => .string "Object"

def Column.json (c : Column) : JsonValue :=
  .object [("alias_index", .number c.index), ("role", c.role.json)]

def Condition.json (c : Condition) : JsonValue :=
  .object [("left", c.left.json), ("right", c.right.json)]

def ProjectionItem.json (item : ProjectionItem) : JsonValue :=
  .object [("column", item.column.json), ("variable", .string item.variableName)]

def NumberedTable.members (t : NumberedTable) : List (Text × JsonValue) :=
  [("table_name", .string t.table), ("table_alias", .string (aliasName t.index))]

def Join.json (j : Join) : JsonValue :=
  let conditions := JsonValue.array (j.on.map Condition.json)
  .object (j.source.members ++ [(("joining_on" : Text), conditions)])

def Filter.json : Filter → JsonValue
  | columns condition => .object [("ColumnEquality", condition.json)]
  | constant filter =>
    .object [("Constant",
      .object [("column", filter.column.json), ("literal", .string filter.literal)])]

def SelectPlan.json (p : SelectPlan) : JsonValue :=
  .object [
    ("select", .object [
      ("items", .array (p.items.map ProjectionItem.json)), ("distinct", .bool p.distinct)]),
    ("from", .object p.source.members),
    ("joins", .array (p.joins.map Join.json)),
    ("filters", .array (p.filters.map Filter.json))]

end TripleTable.Plan
