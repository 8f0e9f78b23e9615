import TripleTable.Proofs.Partition.PlainQueries
import TripleTable.Proofs.Partition.Rewriting
set_option autoImplicit false

/-!
The tables that constraints are put on. A constraint names the table at the position that the
comparison it comes from is about: by the alias of that table, or else by its new name.
-/
namespace TripleTable.Partition
open Sql
open Shape (ColumnRef Comparison relations exposed? Denotes Captured renamedBlock tableKey?
  columnRef?)

-- A column denotes the relation that its qualifier names, or the only one there is.
def Selects (members : List Relation) (c : ColumnRef) (i : Nat) : Prop :=
  match c.qualifier with
  | some qualifier => Denotes members qualifier i
  | none => i = 0 ∧ ∃ relation, members = [relation] ∧ (tableKey? relation).isSome

theorem Selects.relation {members : List Relation} {c : ColumnRef} {i : Nat}
    (selects : Selects members c i) : ∃ relation, members[i]? = some relation := by
  obtain ⟨qualifier, column⟩ := c
  cases qualifier with
  | some qualifier =>
    have denotes : Denotes members qualifier i := selects
    obtain ⟨relation, found, -⟩ := denotes.table
    exact ⟨relation, found⟩
  | none =>
    obtain ⟨rfl, relation, rfl, -⟩ := selects
    exact ⟨relation, rfl⟩

theorem qualified_column (qualifier : Text) {column : Text} (plain : '.' ∉ column) :
    columnRef? (.path (Name.ofKey (qualifier ++ "." ++ column))) = some ⟨some qualifier, column⟩ := by
  have inhabited := of_key_inhabited qualifier
  simp only [columnRef?, of_key_qualified qualifier plain, List.getLast?_concat,
    List.dropLast_concat, Option.map_some, List.isEmpty_iff, inhabited, if_false, key_of_key]

section
variable {metadata : Metadata} {block : Select} {shape : Shape} {relation : Relation}

theorem single_shape (walked : Shape.ofSelect block = .ok shape)
    (only : relations block = [relation]) {key : Text} (table : tableKey? relation = some key) :
    shape.tables = [key] ∧
      shape.aliases = relation.aliased.elim [] fun a => [(a.name.value, key)] := by
  obtain ⟨-, list, -, rfl⟩ := Shape.of_select.mp walked
  have leaf : Shape.isLeaf relation := Shape.table_is_leaf (by rw [table]; rfl)
  simp only [Shape.entered, Shape.block_leaves, only, List.filter_cons_of_pos leaf,
    List.filter_nil, List.foldl_cons, List.foldl_nil]
  obtain ⟨factor, aliased, hints⟩ := relation
  cases factor with
  | table name arguments =>
    cases table
    cases aliased <;> exact ⟨rfl, rfl⟩
  | _ => cases table

-- A constraint is qualified by the name that its table has from then on.
theorem constraint_qualifier (walked : Shape.ofSelect block = .ok shape) {c : ColumnRef} {i : Nat}
    (selects : Selects (relations block) c i) (found : (relations block)[i]? = some relation)
    {table : Text} {mapping : TableMapping} (owned : shape.owner? c = some table)
    (matched : (matchedMappings shape.tables metadata.mappings).find? table = some mapping) :
    exposed? (relation.rename (renamingOf metadata shape)) =
      some ((shape.aliasOf? c table).getD mapping.target) := by
  have target : (renamingOf metadata shape).relationKey table = mapping.target := by
    rw [renaming_key, matched]
    rfl
  obtain ⟨qualifier, column⟩ := c
  cases qualifier with
  | some qualifier =>
    have denotes : Denotes (relations block) qualifier i := selects
    rw [renamingOf, denotes.renamed_name walked _ found]
    congr 1
    by_cases hidden : shape.aliases.contains qualifier
    · rw [Shape.aliasOf?, Renaming.qualifierKey]
      simp only [hidden, if_true, Option.getD_some]
    · have unknown : shape.aliases.find? qualifier = none := by
        rwa [NameTable.contains_find, Bool.not_eq_true, Option.isSome_eq_false_iff,
          Option.isNone_iff_eq_none] at hidden
      have same : qualifier = table := by
        simp only [Shape.owner?, unknown] at owned
        split at owned
        · exact Option.some.inj owned
        · cases owned
      subst same
      rw [Shape.aliasOf?, Renaming.qualifierKey]
      simp only [hidden, Bool.false_eq_true, if_false, Option.getD_none]
      exact target
  | none =>
    obtain ⟨rfl, only, alone, key_known⟩ := selects
    obtain rfl : only = relation := by
      rw [alone] at found
      exact Option.some.inj found
    obtain ⟨key, key_is⟩ := Option.isSome_iff_exists.mp key_known
    obtain ⟨tables, aliases⟩ := single_shape walked alone key_is
    obtain rfl : key = table := by
      simpa only [Shape.owner?, tables, Option.some.injEq] using owned
    cases aliased : only.aliased with
    | some a =>
      rw [Shape.exposed_aliased aliased]
      simp [Shape.aliasOf?, aliases, aliased]
    | none =>
      rw [Shape.exposed_plain aliased, key_is, Option.map_some, target]
      simp [Shape.aliasOf?, aliases, aliased]

theorem selected_renamed (walked : Shape.ofSelect block = .ok shape) {c : ColumnRef} {i : Nat}
    (selects : Selects (relations block) c i)
    (free : ∀ qualifier, c.qualifier = some qualifier →
      ¬ Captured (renamingOf metadata shape) (relations block) qualifier)
    (found : (relations block)[i]? = some relation) {name : Text}
    (named : exposed? (relation.rename (renamingOf metadata shape)) = some name) :
    Denotes ((relations block).map (Relation.rename (renamingOf metadata shape))) name i := by
  obtain ⟨qualifier, column⟩ := c
  cases qualifier with
  | some qualifier =>
    have denotes : Denotes (relations block) qualifier i := selects
    obtain rfl := Option.some.inj ((denotes.renamed_name walked _ found).symm.trans named)
    exact (denotes.renamed walked _).mpr (free qualifier rfl)
  | none =>
    obtain ⟨rfl, only, alone, key_known⟩ := selects
    rw [alone] at found ⊢
    obtain rfl := Option.some.inj found
    refine ⟨⟨_, rfl, ?_, named⟩, fun j other at_j _ => ?_⟩
    · rwa [Shape.table_key_rename, Option.isSome_map]
    · match j with
      | 0 => rfl
      | j + 1 => cases at_j

theorem finding_attached (walked : Shape.ofSelect block = .ok shape)
    (plain : ∀ a ∈ metadata.attributes, '.' ∉ a.targetColumn) {c : Comparison}
    {constraint : Constraint} (member : (c, .ok (some constraint)) ∈ findings metadata shape)
    {i : Nat} (selects : Selects (relations block) c.left i)
    (free : ∀ qualifier, c.left.qualifier = some qualifier →
      ¬ Captured (renamingOf metadata shape) (relations block) qualifier) :
    ∃ qualifier column,
      columnRef? (.path (Name.ofKey constraint.column)) = some ⟨some qualifier, column⟩ ∧
      Denotes ((relations block).map (Relation.rename (renamingOf metadata shape))) qualifier i := by
  obtain ⟨table, mapping, owned, matched, a, listed, expanded⟩ := finding_found member
  obtain ⟨relation, found⟩ := selects.relation
  have named := constraint_qualifier walked selects found owned matched
  refine ⟨_, a.targetColumn, ?_, selected_renamed walked selects free found named⟩
  rw [expand_column expanded, qualified_column _ (plain a listed)]

end

-- What is asked of the emitted text holds wherever no name and no alias needs quotes
-- (`emitted_reads_back`).
theorem constraints_attached {metadata : Metadata} {sql : Text} {outcome : Outcome} {q : Query}
    {shape : Shape} {block : Select} (rewritten : rewrite (.ok metadata) sql = .ok outcome)
    (parsed : parseStatement sql = .ok (.query q)) (walked : Shape.ofQuery q = .ok shape)
    (body : q.body = .select block) (plain : ∀ a ∈ metadata.attributes, '.' ∉ a.targetColumn)
    (reads_back : outcome.substitutions ≠ [] →
      ∃ again, parseStatement (emitted metadata shape q).text = .ok (.query again) ∧
        Shape.QueryRegrouped (emitted metadata shape q) again) :
    ∃ again next after,
      parseStatement outcome.sql = .ok (.query again) ∧ Shape.ofQuery again = .ok next ∧
      again.body = .select after ∧ outcome.constraints = constraintsOf metadata shape ∧
      ∀ c constraint i, (c, .ok (some constraint)) ∈ findings metadata shape →
        Selects (relations block) c.left i →
        (∀ qualifier, c.left.qualifier = some qualifier →
          ¬ Captured (renamingOf metadata shape) (relations block) qualifier) →
        ∃ qualifier column,
          columnRef? (.path (Name.ofKey constraint.column)) = some ⟨some qualifier, column⟩ ∧
          Denotes (relations after) qualifier i := by
  obtain ⟨found, known, same, same_shape, query⟩ := rewrite_accepted.mp rewritten
  obtain rfl := Statement.query.inj (Except.ok.inj (parsed.symm.trans same))
  obtain rfl := Except.ok.inj (walked.symm.trans same_shape)
  obtain ⟨-, -, other, same_body, entered⟩ := Shape.of_query.mp walked
  obtain rfl := Body.select.inj (body.symm.trans same_body)
  rcases rewritten_outcome query with ⟨unmatched, rfl, -⟩ | ⟨changed, -⟩
  · have none_found := unmatched_findings unmatched
    refine ⟨q, shape, block, parsed, walked, body, by rw [constraintsOf, none_found]; rfl, ?_⟩
    intro c constraint i member
    rw [none_found] at member
    cases member
  · obtain ⟨again, parsed_again, grouped⟩ := reads_back changed
    obtain ⟨constraints, read, ⟨next, walked_next⟩, selection, rfl, -⟩ :=
      read_back query changed walked body parsed_again grouped
    refine ⟨_, next, _, read, walked_next, rfl, constraints, fun c constraint i member => ?_⟩
    have moved : relations { renamedBlock (renamingOf metadata shape) block with selection } =
        (relations block).map (Relation.rename (renamingOf metadata shape)) :=
      Shape.relations_rename _ block
    rw [moved]
    exact finding_attached entered plain member

section
-- One table under two aliases, each of them compared.
def equals (table column : String) (p : Int) : Expr :=
  .binary (Name.expr [⟨table, none⟩, ⟨column, none⟩]) (.compare .eq) (signed p)

def twice : ListedSelect where
  items := [.all]
  tables := [⟨[⟨"tbl", none⟩], some "a"⟩, ⟨[⟨"tbl", none⟩], some "b"⟩]
  selection := some (.binary (equals "a" "fid" 45000) .and (equals "b" "fid" 5))

def twiceShape : Shape where
  projection := ["*"]
  tables := ["tbl"]
  aliases := [("a", "tbl"), ("b", "tbl")]
  predicates := [⟨⟨some "a", "fid"⟩, .eq, .integer 45000⟩, ⟨⟨some "b", "fid"⟩, .eq, .integer 5⟩]

def equalsTokens (table column value : String) : List Token :=
  [plainWord table, .symbol ".", plainWord column, .symbol "=", .number value false]

set_option maxRecDepth 10000 in
theorem twice_parsed :
    parseStatement "SELECT * FROM tbl AS a, tbl AS b WHERE a.fid = 45000 AND b.fid = 5" =
      .ok (.query twice.query) := by
  have lexed : tokens? "SELECT * FROM tbl AS a, tbl AS b WHERE a.fid = 45000 AND b.fid = 5" =
      some ([plainWord "SELECT", .symbol "*", plainWord "FROM", plainWord "tbl", plainWord "AS",
        plainWord "a", .symbol ",", plainWord "tbl", plainWord "AS", plainWord "b",
        plainWord "WHERE"] ++ equalsTokens "a" "fid" "45000" ++ [plainWord "AND"] ++
        equalsTokens "b" "fid" "5") := by
    decide +kernel
  rw [parseStatement, parseStatements, lexed]
  rfl

theorem twice_walked : Shape.ofQuery twice.query = .ok twiceShape := rfl

def bothConstraints : List Constraint := [⟨"a.part", [2]⟩, ⟨"b.part", [0]⟩]

theorem twice_constraints : constraintsOf shards twiceShape = bothConstraints := by
  decide +kernel

theorem twice_plain : ∀ e ∈ twice.selection, PlainCondition e := by
  rintro _ ⟨⟩
  exact .both (.compared .eq (by decide +kernel) (.number 45000))
    (.compared .eq (by decide +kernel) (.number 5))

theorem twice_findings :
    findings shards twiceShape =
      [(⟨⟨some "a", "fid"⟩, .eq, .integer 45000⟩, .ok (some ⟨"a.part", [2]⟩)),
        (⟨⟨some "b", "fid"⟩, .eq, .integer 5⟩, .ok (some ⟨"b.part", [0]⟩))] := by
  have listed : shards.attributesOf [1] = shards.attributes := by decide +kernel
  have ids : (matchedMappings twiceShape.tables shards.mappings).map (fun row => row.2.id) = [1] :=
    rfl
  simp only [findings, ids, listed]
  rfl

theorem first_alias_denoted : Denotes (relations twice.block) "a" 0 := by
  refine ⟨⟨_, rfl, rfl, rfl⟩, fun j relation at_j reached => ?_⟩
  match j with
  | 0 => rfl
  | 1 =>
    cases at_j
    exact absurd (Option.some.inj reached) (by decide)
  | j + 2 => cases at_j

theorem second_alias_denoted : Denotes (relations twice.block) "b" 1 := by
  refine ⟨⟨_, rfl, rfl, rfl⟩, fun j relation at_j reached => ?_⟩
  match j with
  | 0 =>
    cases at_j
    exact absurd (Option.some.inj reached) (by decide)
  | 1 => rfl
  | j + 2 => cases at_j

theorem aliases_free : ∀ qualifier ∈ [("a" : Text), "b"],
    ¬ Captured (renamingOf shards twiceShape) (relations twice.block) qualifier := by
  unfold Captured
  decide

theorem both_aliases_attached :
    ∃ outcome again after,
      rewrite (.ok shards) "SELECT * FROM tbl AS a, tbl AS b WHERE a.fid = 45000 AND b.fid = 5" =
        .ok outcome ∧
      parseStatement outcome.sql = .ok (.query again) ∧ again.body = .select after ∧
      outcome.constraints = [⟨"a.part", [2]⟩, ⟨"b.part", [0]⟩] ∧
      Denotes (relations after) "a" 0 ∧ Denotes (relations after) "b" 1 := by
  obtain ⟨outcome, rewritten⟩ : ∃ outcome, rewrite (.ok shards)
      "SELECT * FROM tbl AS a, tbl AS b WHERE a.fid = 45000 AND b.fid = 5" = .ok outcome :=
    ⟨_, rewrite_accepted.mpr ⟨_, _, twice_parsed, twice_walked, rfl⟩⟩
  have selects : twice.query.body = .select twice.block := rfl
  obtain ⟨again, next, after, read, -, after_body, constraints, attached⟩ :=
    constraints_attached rewritten twice_parsed twice_walked selects (by decide)
      fun _ => emitted_reads_back (by decide +kernel) (by decide +kernel) twice_plain twice_walked
  rw [twice_findings] at attached
  rw [twice_constraints] at constraints
  refine ⟨outcome, again, after, rewritten, read, after_body, constraints, ?_, ?_⟩
  · obtain ⟨qualifier, column, same, denotes⟩ :=
      attached ⟨⟨some "a", "fid"⟩, .eq, .integer 45000⟩ ⟨"a.part", [2]⟩ 0 (.head _)
        first_alias_denoted fun _ named => aliases_free _ (Option.some.inj named ▸ .head _)
    cases same
    exact denotes
  · obtain ⟨qualifier, column, same, denotes⟩ :=
      attached ⟨⟨some "b", "fid"⟩, .eq, .integer 5⟩ ⟨"b.part", [0]⟩ 1 (.tail _ (.head _))
        second_alias_denoted fun _ named => aliases_free _
          (Option.some.inj named ▸ .tail _ (.head _))
    cases same
    exact denotes

-- An alias that needs its quotes loses them in the column of the constraint.
def spaced (column : String) : Name := [⟨"my tbl", some '"'⟩, ⟨column, none⟩]

def spacedTokens (column : String) : List Token :=
  [.word ⟨"my tbl", some '"'⟩, .symbol ".", plainWord column]

def spacedQuery : Query :=
  ⟨[], .select ⟨[], [.parts [.operand (.path (spaced "fid"))]], [],
    [⟨⟨.table [⟨"tbl", none⟩] [], some ⟨⟨"my tbl", some '"'⟩, []⟩, []⟩, []⟩], [],
    some (.binary (.path (spaced "fid")) (.compare .eq) (.number "45000" false)), []⟩, [.words []]⟩

def spacedShape : Shape where
  projection := ["\"my tbl\".fid"]
  tables := ["tbl"]
  aliases := [("my tbl", "tbl")]
  predicates := [⟨⟨some "my tbl", "fid"⟩, .eq, .integer 45000⟩]

def spacedText : Text :=
  "select \"my tbl\".fid from tbl as \"my tbl\" where \"my tbl\".fid = 45000"

def spacedOutcome : Text :=
  "SELECT \"my tbl\".fid FROM shard AS \"my tbl\" WHERE \"my tbl\".fid = 45000 AND (my tbl.part = 2)"

theorem spaced_parsed : parseStatement spacedText = .ok (.query spacedQuery) := by
  have lexed : tokens? spacedText =
      some ([plainWord "select"] ++ spacedTokens "fid" ++ [plainWord "from", plainWord "tbl",
        plainWord "as", .word ⟨"my tbl", some '"'⟩, plainWord "where"] ++ spacedTokens "fid" ++
        [.symbol "=", .number "45000" false]) := by
    decide +kernel
  rw [parseStatement, parseStatements, lexed]
  rfl

set_option maxRecDepth 10000 in
theorem quoted_alias_unreadable :
    ∃ outcome, rewrite (.ok shards) spacedText = .ok outcome ∧ outcome.sql = spacedOutcome ∧
      outcome.constraints = [⟨"my tbl.part", [2]⟩] ∧
      parseStatement outcome.sql = .error .invalidSql := by
  have walked : Shape.ofQuery spacedQuery = .ok spacedShape := rfl
  have refused : parseStatement spacedOutcome = .error .invalidSql := by
    have lexed : tokens? spacedOutcome =
        some ([plainWord "SELECT"] ++ spacedTokens "fid" ++ [plainWord "FROM", plainWord "shard",
          plainWord "AS", .word ⟨"my tbl", some '"'⟩, plainWord "WHERE"] ++ spacedTokens "fid" ++
          [.symbol "=", .number "45000" false, plainWord "AND", .symbol "(", plainWord "my"] ++
          equalsTokens "tbl" "part" "2" ++ [.symbol ")"]) := by
      decide +kernel
    rw [parseStatement, parseStatements, lexed]
    rfl
  obtain ⟨outcome, rewritten, text, constraints⟩ : ∃ outcome,
      rewrite (.ok shards) spacedText = .ok outcome ∧ outcome.sql = spacedOutcome ∧
        outcome.constraints = [⟨"my tbl.part", [2]⟩] :=
    ⟨_, rewrite_accepted.mpr ⟨_, _, spaced_parsed, walked, rfl⟩, by decide +kernel,
      by decide +kernel⟩
  exact ⟨outcome, rewritten, text, constraints, text ▸ refused⟩

end

end TripleTable.Partition
