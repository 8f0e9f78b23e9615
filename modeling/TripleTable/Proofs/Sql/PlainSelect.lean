import TripleTable.Proofs.Sql.Lexing
import TripleTable.Proofs.Text.Names
import TripleTable.Sql.Grammar.Basic
set_option autoImplicit false

/-!
SELECT statements over joined tables with aliases, whose conditions are conjunctions of equalities:
the tokens they are written with and the trees that these tokens make. A statement is written in
lower case with its aliases right behind the tables, or printed in capitals with AS before them.
-/
namespace TripleTable.Sql

def nameToken (name : Text) : Token := .word ⟨name, none⟩

def spell (printed : Bool) (word : String) : Text :=
  if printed then (inCapitals word.toList).toList else word.toList

def keywordToken (printed : Bool) (word : String) : Token := nameToken (spell printed word)

inductive Side where
  | column (table name : Text)
  | string (value : Text)

structure Equality where
  table : Text
  column : Text
  right : Side

structure PlainTable where
  name : Text
  short : Text

structure PlainJoin where
  table : PlainTable
  on : List Equality

structure PlainSelect where
  distinct : Bool
  items : List Side
  table : PlainTable
  joins : List PlainJoin
  filters : List Equality

def Side.tokens : Side → List Token
  | column table name => [nameToken table, .symbol ".", nameToken name]
  | string value => [.string value]

def Side.expr : Side → Expr
  | column table name => .path [⟨table, none⟩, ⟨name, none⟩]
  | string value => .string value

namespace Equality

def left (e : Equality) : Side := .column e.table e.column

def tokens (e : Equality) : List Token := e.left.tokens ++ .symbol "=" :: e.right.tokens

def expr (e : Equality) : Expr := .binary e.left.expr (.compare .eq) e.right.expr

def allTokens (printed : Bool) (conditions : List Equality) : List Token :=
  [keywordToken printed "and"].intercalate (conditions.map tokens)

def chained (printed : Bool) (more : List Equality) : List Token :=
  more.flatMap fun e => keywordToken printed "and" :: e.tokens

def conjunction (first : Expr) (more : List Equality) : Expr :=
  more.foldl (fun condition e => .binary condition .and e.expr) first

def all : List Equality → Option Expr
  | [] => none
  | first :: more => some (conjunction first.expr more)

theorem chained_cons (printed : Bool) (e : Equality) (more : List Equality) (rest : List Token) :
    chained printed (e :: more) ++ rest =
      keywordToken printed "and" :: (e.tokens ++ (chained printed more ++ rest)) := by
  simp only [chained, List.flatMap_cons, List.cons_append, List.append_assoc]

theorem all_tokens_cons (printed : Bool) (first : Equality) (more : List Equality) :
    allTokens printed (first :: more) = first.tokens ++ chained printed more := by
  rw [allTokens, List.map_cons, intercalate_flat, List.flatMap_map]
  rfl

end Equality

namespace PlainTable

def nameTokens (t : PlainTable) : List Token :=
  [Token.symbol "."].intercalate ((Name.ofKey t.name).map fun name => [.word name])

def aliasTokens (printed : Bool) (t : PlainTable) : List Token :=
  if printed then [keywordToken printed "as", nameToken t.short] else [nameToken t.short]

def tokens (printed : Bool) (t : PlainTable) : List Token := t.nameTokens ++ t.aliasTokens printed

def relation (t : PlainTable) : Relation :=
  ⟨.table (Name.ofKey t.name) [], some ⟨⟨t.short, none⟩, []⟩, []⟩

end PlainTable

namespace PlainJoin

def tokens (printed : Bool) (j : PlainJoin) : List Token :=
  keywordToken printed "join" ::
    (j.table.tokens printed ++ keywordToken printed "on" :: Equality.allTokens printed j.on)

def join (j : PlainJoin) : Join :=
  ⟨" JOIN ", j.table.relation, Grammar.maybeParts " ON " (Equality.all j.on)⟩

end PlainJoin

namespace PlainSelect

def itemsTokens (p : PlainSelect) : List Token :=
  [Token.symbol ","].intercalate (p.items.map Side.tokens)

def sourcesTokens (printed : Bool) (p : PlainSelect) : List Token :=
  keywordToken printed "from" ::
    (p.table.tokens printed ++ p.joins.flatMap (PlainJoin.tokens printed))

def filtersTokens (printed : Bool) (p : PlainSelect) : List Token :=
  if p.filters = [] then []
  else keywordToken printed "where" :: Equality.allTokens printed p.filters

def distinctTokens (printed : Bool) (p : PlainSelect) : List Token :=
  if p.distinct then [keywordToken printed "distinct"] else []

def tokens (printed : Bool) (p : PlainSelect) : List Token :=
  keywordToken printed "select" :: (p.distinctTokens printed ++
    (p.itemsTokens ++ (p.sourcesTokens printed ++ p.filtersTokens printed)))

def source (p : PlainSelect) : Source := ⟨p.table.relation, p.joins.map PlainJoin.join⟩

def block (p : PlainSelect) : Select where
  head := if p.distinct then [.words " DISTINCT"] else []
  projection := p.items.map fun side => .parts [.operand side.expr]
  target := []
  sources := [p.source]
  views := []
  selection := Equality.all p.filters
  tail := []

def query (p : PlainSelect) : Query := ⟨[], .select p.block, [.words []]⟩

end PlainSelect

-- Whether the second character of a word is a digit. No word of the grammar is of this kind,
-- so that an alias made of a letter and a number is never taken for one.
def numbered (word : String) : Bool := (word.toList.drop 1).head?.any Char.isDigit

-- A relation that begins with one of these words is not a table.
def isFree (word : String) : Bool :=
  !(["LATERAL", "TABLE", "UNNEST", "JSON_TABLE"].contains word)

-- A name that is read as a table wherever it is written bare: words with periods between them, the
-- first of which begins no other relation.
def SoundName (name : Text) : Prop :=
  (∀ part ∈ Text.splitOn (· == '.') name, isBareWord part) ∧
    ∀ first ∈ (Text.splitOn (· == '.') name).head?, isFree (inCapitals first)

instance : DecidablePred SoundName := fun _ => inferInstanceAs (Decidable (_ ∧ _))

theorem bare_no_period {word : Text} (bare : isBareWord word) : '.' ∉ word := by
  intro member
  cases word with
  | nil => cases member
  | cons c more =>
    simp only [isBareWord, List.head?_cons, Option.any_some, List.tail_cons, Bool.and_eq_true,
      List.all_eq_true] at bare
    rcases List.mem_cons.mp member with rfl | inside
    · exact absurd bare.1 (by decide)
    · exact absurd (bare.2 _ inside) (by decide)

theorem plain_sound {name : Text} (plain : PlainName name) : SoundName name := by
  obtain ⟨bare, other⟩ := plain
  have whole := Text.split_plain (bare_no_period bare)
  have relations : ∀ word ∈ ["LATERAL", "TABLE", "UNNEST", "JSON_TABLE"], word ∈ keywords := by
    decide +kernel
  refine ⟨by rw [whole]; simpa using bare, ?_⟩
  rw [whole]
  rintro first ⟨⟩
  have free : inCapitals name ∉ ["LATERAL", "TABLE", "UNNEST", "JSON_TABLE"] := fun member =>
    other (relations _ member)
  simpa [isFree] using free

def Side.Numbered : Side → Prop
  | column table _ => numbered (Ident.keyword ⟨table, none⟩)
  | string _ => True

def Equality.Numbered (e : Equality) : Prop := e.left.Numbered ∧ e.right.Numbered

structure PlainTable.Named (t : PlainTable) : Prop where
  free : ∀ first ∈ (Name.ofKey t.name).head?, isFree first.keyword
  number : numbered (Ident.keyword ⟨t.short, none⟩)

-- What rules the other readings of the tokens out: numbered aliases, free table names, and at
-- least one item and one condition for each join.
structure PlainSelect.Named (p : PlainSelect) : Prop where
  some_item : p.items ≠ []
  items : ∀ side ∈ p.items, side.Numbered
  table : p.table.Named
  joined : ∀ j ∈ p.joins, j.table.Named
  some_condition : ∀ j ∈ p.joins, j.on ≠ []
  conditions : ∀ j ∈ p.joins, ∀ e ∈ j.on, e.Numbered
  filters : ∀ e ∈ p.filters, e.Numbered

end TripleTable.Sql
