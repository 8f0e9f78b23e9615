import TripleTable.Sql.Grammar.Command
set_option autoImplicit false

/-!
The statements of an SQL text.
-/
namespace TripleTable.Sql

def maxDepth : Nat := 50

-- What stands behind an END is not looked at.
def parseStatements (sql : Text) : Option (List Statement) := do
  let (statements, _) ← Grammar.statements (Grammar.statement maxDepth) (← tokens? sql)
  return statements

end TripleTable.Sql
