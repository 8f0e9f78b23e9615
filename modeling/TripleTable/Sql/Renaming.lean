import TripleTable.Sql.Printer
import TripleTable.Text.Table
set_option autoImplicit false

/-!
Renaming of tables in a statement: the relations that bear a name, and the qualifiers of columns
that stand for such a relation. An alias hides the table of the same name from the qualifiers.
-/
namespace TripleTable.Sql

-- The target names of tables, by their dotted names, and the aliases of the statement.
structure Renaming where
  targets : NameTable Text
  aliases : NameTable Text

namespace Renaming

def relationName (r : Renaming) (name : Name) : Name :=
  match r.targets.find? name.key with
  | some target => Name.ofKey target
  | none => name

def qualifier (r : Renaming) (name : Name) : Name :=
  if r.aliases.contains name.key then name else r.relationName name

-- A dotted column name after renaming: all but its last name is the qualifier.
def path (r : Renaming) (names : Name) : Name :=
  match names.getLast?, names.dropLast with
  | some column, first :: rest => r.qualifier (first :: rest) ++ [column]
  | _, _ => names

end Renaming

mutual

def Expr.rename (r : Renaming) : Expr → Expr
  | .column name => .column name
  | .path names => .path (r.path names)
  | .number digits long => .number digits long
  | .string value => .string value
  | .boolean value => .boolean value
  | .null => .null
  | .nested inner => .nested (inner.rename r)
  | .unary op operand => .unary op (operand.rename r)
  | .binary left op right => .binary (left.rename r) op (right.rename r)
  | .subquery q => .subquery (q.rename r)
  | .inSubquery operand negated q => .inSubquery (operand.rename r) negated (q.rename r)
  | .existsSubquery negated q => .existsSubquery negated (q.rename r)
  | .form parts => .form (renameParts r parts)

def Part.rename (r : Renaming) : Part → Part
  | .words text => .words text
  | .operand e => .operand (e.rename r)
  | .query q => .query (q.rename r)
  | .source s => .source (s.rename r)

def renameParts (r : Renaming) : List Part → List Part
  | [] => []
  | part :: rest => part.rename r :: renameParts r rest

def Query.rename (r : Renaming) : Query → Query
  | ⟨ctes, body, tail⟩ => ⟨renameParts r ctes, body.rename r, renameParts r tail⟩

def Body.rename (r : Renaming) : Body → Body
  | .select block => .select (block.rename r)
  | .nested q => .nested (q.rename r)
  | .combined left op quantifier right => .combined (left.rename r) op quantifier (right.rename r)
  | .other parts => .other (renameParts r parts)

def Select.rename (r : Renaming) : Select → Select
  | ⟨head, projection, target, sources, views, selection, tail⟩ =>
    ⟨renameParts r head, renameItems r projection, target, renameSources r sources,
      renameParts r views, renameSelection r selection, renameParts r tail⟩

def renameSelection (r : Renaming) : Option Expr → Option Expr
  | none => none
  | some condition => some (condition.rename r)

def Item.rename (r : Renaming) : Item → Item
  | .parts parts => .parts (renameParts r parts)
  | .qualifiedWildcard name options => .qualifiedWildcard name (renameParts r options)

def renameItems (r : Renaming) : List Item → List Item
  | [] => []
  | item :: rest => item.rename r :: renameItems r rest

def Source.rename (r : Renaming) : Source → Source
  | ⟨relation, joins⟩ => ⟨relation.rename r, renameJoins r joins⟩

def renameSources (r : Renaming) : List Source → List Source
  | [] => []
  | source :: rest => source.rename r :: renameSources r rest

def renameJoins (r : Renaming) : List Join → List Join
  | [] => []
  | join :: rest => join.rename r :: renameJoins r rest

def Join.rename (r : Renaming) : Join → Join
  | ⟨kind, relation, constraint⟩ => ⟨kind, relation.rename r, renameParts r constraint⟩

def Relation.rename (r : Renaming) : Relation → Relation
  | ⟨factor, aliased, hints⟩ => ⟨factor.rename r, aliased, renameParts r hints⟩

def Factor.rename (r : Renaming) : Factor → Factor
  | .table name arguments => .table (r.relationName name) (renameParts r arguments)
  | .derived lateral q => .derived lateral (q.rename r)
  | .nested inner => .nested (inner.rename r)
  | .other parts => .other (renameParts r parts)

end

-- The qualifier of a wildcard is renamed in the projection of the outermost block only.
def Item.renameWildcard (r : Renaming) : Item → Item
  | .qualifiedWildcard name options => .qualifiedWildcard (r.qualifier name) options
  | item => item

def Body.renameWildcards (r : Renaming) : Body → Body
  | .select block =>
    .select { block with projection := block.projection.map (Item.renameWildcard r) }
  | body => body

def Query.renameTables (r : Renaming) (q : Query) : Query :=
  let q := q.rename r
  { q with body := q.body.renameWildcards r }

end TripleTable.Sql
