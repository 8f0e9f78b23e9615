import TripleTable.Proofs.Partition.Rewriting
import TripleTable.Proofs.Shape.Scope
import TripleTable.Proofs.Sql.Occurrences
set_option autoImplicit false

/-!
What the columns of a rewritten query refer to. A reference goes on to name the table at its
position; it names another relation as well just when the new name of the table is taken.
-/
namespace TripleTable.Partition
open Sql
open Shape (relations exposed? tableKey? Denotes Captured renamedBlock)

theorem conjunction_occurrences (conditions : List Expr) (selection : Option Expr) :
    selectionOccurrences (conjunction selection conditions) =
      selectionOccurrences selection ++ conditions.flatMap Expr.occurrences := by
  induction conditions generalizing selection with
  | nil => simp [conjunction]
  | cons added rest ih =>
    cases selection with
    | none => simp only [conjunction, ih, selectionOccurrences, List.flatMap_cons, List.nil_append]
    | some condition =>
      simp only [conjunction, ih, selectionOccurrences, Expr.occurrences, List.flatMap_cons,
        List.append_assoc]

-- The names of a query, cut where the added conditions come to stand.
theorem conjoined_occurrences {q : Query} {block : Select} (body : q.body = .select block) :
    ∃ front back, q.occurrences = front ++ back ∧ ∀ r conditions,
      (conjoin (q.renameTables r) conditions).occurrences =
        front.map (Occurrence.rename r) ++ conditions.flatMap Expr.occurrences ++
          back.map (Occurrence.rename r) := by
  obtain ⟨ctes, _, tail⟩ := q
  obtain ⟨head, projection, target, sources, views, selection, after⟩ := block
  cases body
  refine ⟨partsOccurrences ctes ++ (partsOccurrences head ++ itemsOccurrences projection ++
    sourcesOccurrences sources ++ partsOccurrences views ++ selectionOccurrences selection),
    partsOccurrences after ++ partsOccurrences tail, ?_, fun r conditions => ?_⟩
  · simp only [Query.occurrences, Body.occurrences, Select.occurrences, List.append_assoc]
  · rw [conjoin_select (Shape.rename_tables_body r rfl)]
    simp only [Query.renameTables, Query.rename, Query.occurrences, Body.occurrences, renamedBlock,
      Select.rename, Select.occurrences, conjunction_occurrences, wildcards_occurrences,
      parts_occurrences_rename, items_occurrences_rename, sources_occurrences_rename,
      selection_occurrences_rename, List.map_append, List.append_assoc]

theorem unmatched_path {r : Renaming} (unmatched : r.targets = []) (names : Name) :
    r.path names = names := by
  have kept : ∀ name, r.qualifier name = name := by
    intro name
    unfold Renaming.qualifier Renaming.relationName
    rw [unmatched]
    split <;> rfl
  rcases List.eq_nil_or_concat names with rfl | ⟨front, column, rfl⟩
  · rfl
  · rw [List.concat_eq_append]
    cases front with
    | nil => rfl
    | cons first rest => rw [r.path_qualified, kept]

theorem unmatched_relation {r : Renaming} (unmatched : r.targets = []) : r.relationKey = id := by
  funext key
  rw [Renaming.relationKey, unmatched]
  rfl

theorem unmatched_qualifier {r : Renaming} (unmatched : r.targets = []) (key : Text) :
    r.qualifierKey key = key := by
  rw [Renaming.qualifierKey, unmatched_relation unmatched, id_eq, ite_self]

theorem unmatched_exposed {r : Renaming} (unmatched : r.targets = []) (relation : Relation) :
    exposed? (relation.rename r) = exposed? relation := by
  cases aliased : relation.aliased with
  | some a =>
    rw [Shape.exposed_aliased aliased]
    simp only [exposed?, aliased]
  | none =>
    rw [Shape.exposed_plain aliased, unmatched_relation unmatched, Option.map_id, id_eq]
    simp only [exposed?, aliased]

theorem unmatched_free {r : Renaming} (unmatched : r.targets = []) (members : List Relation)
    (qualifier : Text) : ¬ Captured r members qualifier := by
  rintro ⟨other, -, different, captured⟩
  rw [unmatched_exposed unmatched, unmatched_qualifier unmatched] at captured
  exact different captured

section
variable {metadata : Metadata} {sql : Text} {outcome : Outcome} {q : Query} {shape : Shape}
  {block : Select}

theorem rewritten_references (rewritten : rewriteQuery metadata sql q shape = .ok outcome)
    (body : q.body = .select block) :
    ∃ front back, q.references = front ++ back ∧
      (rewrittenQuery metadata shape q).references =
        front.map (renamingOf metadata shape).path ++
          outcome.constraints.flatMap (fun c => c.expr.references) ++
            back.map (renamingOf metadata shape).path := by
  rcases rewritten_outcome rewritten with ⟨unmatched, rfl, same⟩ | ⟨-, -, constraints, conjoined⟩
  · have kept : (renamingOf metadata shape).path = id :=
      funext (unmatched_path (unmatched_targets unmatched))
    refine ⟨q.references, [], (List.append_nil _).symm, ?_⟩
    rw [same, kept, List.map_id, List.map_nil, List.flatMap_nil, List.append_nil, List.append_nil]
  · obtain ⟨front, back, before, after⟩ := conjoined_occurrences body
    refine ⟨front.filterMap Occurrence.path?, back.filterMap Occurrence.path?, ?_, ?_⟩
    · rw [Query.references, before, List.filterMap_append]
    · rw [conjoined, constraints, Query.references, after, List.filterMap_append,
        List.filterMap_append, paths_rename, paths_rename, conditions_paths, List.flatMap_map]

theorem rewritten_denotes (rewritten : rewriteQuery metadata sql q shape = .ok outcome)
    (body : q.body = .select block) (walked : Shape.ofSelect block = .ok shape) :
    ∃ after, (rewrittenQuery metadata shape q).body = .select after ∧
      ∀ qualifier i, Denotes (relations block) qualifier i →
        (∃ old table, (relations block)[i]? = some old ∧ (relations after)[i]? = some table ∧
          tableKey? table = (tableKey? old).map (renamingOf metadata shape).relationKey ∧
          exposed? table = some ((renamingOf metadata shape).qualifierKey qualifier)) ∧
        (Denotes (relations after) ((renamingOf metadata shape).qualifierKey qualifier) i ↔
          ¬ Captured (renamingOf metadata shape) (relations block) qualifier) := by
  rcases rewritten_outcome rewritten with ⟨unmatched, -, same⟩ | ⟨-, -, -, conjoined⟩
  · have targets := unmatched_targets unmatched
    refine ⟨block, by rw [same, body], fun qualifier i denotes => ?_⟩
    rw [unmatched_qualifier targets, unmatched_relation targets, Option.map_id_fun,
      iff_true_right (unmatched_free targets _ _)]
    obtain ⟨old, found, -, reached⟩ := denotes.table
    exact ⟨⟨old, old, found, found, rfl, reached⟩, denotes⟩
  · refine ⟨_, by rw [conjoined, conjoin_select (Shape.rename_tables_body _ body)],
      fun qualifier i denotes => ?_⟩
    have moved : ∀ selection, relations
        { renamedBlock (renamingOf metadata shape) block with selection := selection } =
          (relations block).map (Relation.rename (renamingOf metadata shape)) :=
      fun _ => Shape.relations_rename _ block
    rw [moved]
    obtain ⟨old, found, -, -⟩ := denotes.table
    refine ⟨⟨old, old.rename _, found, ?_, Shape.table_key_rename _ old,
      denotes.renamed_name walked _ found⟩, denotes.renamed walked _⟩
    rw [List.getElem?_map, found]
    rfl

-- The table at the position keeps being named, so the reference is lost only by naming a second
-- relation.
theorem references_keep_their_table (rewritten : rewrite (.ok metadata) sql = .ok outcome)
    (parsed : parseStatement sql = .ok (.query q)) (walked : Shape.ofQuery q = .ok shape)
    (body : q.body = .select block) :
    ∃ after front back,
      (rewrittenQuery metadata shape q).body = .select after ∧
      (outcome.sql = sql ∧ rewrittenQuery metadata shape q = q ∨
        outcome.sql = (rewrittenQuery metadata shape q).text) ∧
      q.references = front ++ back ∧
      (rewrittenQuery metadata shape q).references =
        front.map (renamingOf metadata shape).path ++
          outcome.constraints.flatMap (fun c => c.expr.references) ++
            back.map (renamingOf metadata shape).path ∧
      ∀ qualifier column i, qualifier ≠ [] → Denotes (relations block) (Name.key qualifier) i →
        ∃ next, (renamingOf metadata shape).path (qualifier ++ [column]) = next ++ [column] ∧
          (∃ old table, (relations block)[i]? = some old ∧ (relations after)[i]? = some table ∧
            tableKey? table = (tableKey? old).map (renamingOf metadata shape).relationKey ∧
            exposed? table = some (Name.key next)) ∧
          (Denotes (relations after) (Name.key next) i ↔
            ¬ Captured (renamingOf metadata shape) (relations block) (Name.key qualifier)) := by
  obtain ⟨found, known, same, same_shape, query⟩ := rewrite_accepted.mp rewritten
  obtain rfl := Statement.query.inj (Except.ok.inj (parsed.symm.trans same))
  obtain rfl := Except.ok.inj (walked.symm.trans same_shape)
  obtain ⟨-, -, other, same_body, entered⟩ := Shape.of_query.mp walked
  obtain rfl := Body.select.inj (body.symm.trans same_body)
  obtain ⟨front, back, before, behind⟩ := rewritten_references query body
  obtain ⟨after, rewritten_body, denotes⟩ := rewritten_denotes query body entered
  refine ⟨after, front, back, rewritten_body, ?_, before, behind, ?_⟩
  · rcases rewritten_outcome query with ⟨-, rfl, unchanged⟩ | ⟨-, text, -⟩
    · exact .inl ⟨rfl, unchanged⟩
    · exact .inr text
  · intro qualifier column i qualified denoted
    cases qualifier with
    | nil => exact absurd rfl qualified
    | cons first rest =>
      refine ⟨_, Renaming.path_qualified _ first rest column, ?_⟩
      rw [Renaming.qualifier_key]
      exact denotes _ i denoted

end

section
-- A table that is kept in another, beside a second table under an alias.
def renamedOnly : Metadata := ⟨[⟨"tbl", 1, "tbl2"⟩], []⟩

def besideBlock (short : String) : Select :=
  ⟨[], [.parts [.operand (.path [⟨"tbl", none⟩, ⟨"fid", none⟩])]], [],
    [⟨⟨.table [⟨"tbl", none⟩] [], none, []⟩, []⟩,
      ⟨⟨.table [⟨"other", none⟩] [], some ⟨⟨short, none⟩, []⟩, []⟩, []⟩], [], none, []⟩

def besideAlias (short : String) : Query := ⟨[], .select (besideBlock short), [.words []]⟩

def besideShape (short : String) : Shape where
  projection := ["tbl.fid"]
  tables := ["other", "tbl"]
  aliases := [(short.toList, "other")]

def besideTokens (short : String) : List Token :=
  [plainWord "select", plainWord "tbl", .symbol ".", plainWord "fid", plainWord "from",
    plainWord "tbl", .symbol ",", plainWord "other", plainWord "as", plainWord short]

theorem free_parsed :
    parseStatement "select tbl.fid from tbl, other as o" = .ok (.query (besideAlias "o")) := by
  have lexed : tokens? "select tbl.fid from tbl, other as o" = some (besideTokens "o") := by
    decide +kernel
  rw [parseStatement, parseStatements, lexed]
  rfl

theorem taken_parsed :
    parseStatement "select tbl.fid from tbl, other as tbl2" =
      .ok (.query (besideAlias "tbl2")) := by
  have lexed : tokens? "select tbl.fid from tbl, other as tbl2" = some (besideTokens "tbl2") := by
    decide +kernel
  rw [parseStatement, parseStatements, lexed]
  rfl

theorem beside_walked (short : String) :
    Shape.ofQuery (besideAlias short) = .ok (besideShape short) := rfl

theorem first_denoted (short : String) (other : short.toList ≠ "tbl") :
    Denotes (relations (besideBlock short)) "tbl" 0 := by
  refine ⟨⟨_, rfl, rfl, rfl⟩, fun j relation at_j reached => ?_⟩
  match j with
  | 0 => rfl
  | 1 =>
    cases at_j
    exact absurd (Option.some.inj reached) other
  | j + 2 => cases at_j

theorem free_reference_kept :
    ∃ outcome after,
      rewrite (.ok renamedOnly) "select tbl.fid from tbl, other as o" = .ok outcome ∧
      outcome.sql = "SELECT tbl2.fid FROM tbl2, other AS o".toList ∧
      (rewrittenQuery renamedOnly (besideShape "o") (besideAlias "o")).body = .select after ∧
      Denotes (relations (besideBlock "o")) "tbl" 0 ∧ Denotes (relations after) "tbl2" 0 := by
  obtain ⟨outcome, rewritten, text⟩ : ∃ outcome,
      rewrite (.ok renamedOnly) "select tbl.fid from tbl, other as o" = .ok outcome ∧
        outcome.sql = "SELECT tbl2.fid FROM tbl2, other AS o".toList :=
    ⟨_, rewrite_accepted.mpr ⟨_, _, free_parsed, beside_walked "o", rfl⟩, by decide +kernel⟩
  have selects : (besideAlias "o").body = .select (besideBlock "o") := rfl
  obtain ⟨after, front, back, body, -, -, -, kept⟩ :=
    references_keep_their_table rewritten free_parsed (beside_walked "o") selects
  have denoted := first_denoted "o" (by decide)
  obtain ⟨next, renamed, -, free⟩ := kept [⟨"tbl", none⟩] ⟨"fid", none⟩ 0 (by simp) denoted
  obtain rfl : [⟨"tbl2", none⟩] = next := List.append_cancel_right renamed
  refine ⟨outcome, after, rewritten, text, body, denoted, free.mpr ?_⟩
  rintro ⟨other, member, different, captured⟩
  rcases List.mem_cons.mp member with rfl | member
  · exact different rfl
  · obtain rfl := List.mem_singleton.mp member
    exact absurd captured (by decide)

-- The alias of the second table is the target of the first.
theorem taken_name_captures :
    ¬ ∀ (metadata : Metadata) (sql : Text) (outcome : Outcome) (q : Query) (shape : Shape)
        (block after : Select), rewrite (.ok metadata) sql = .ok outcome →
      parseStatement sql = .ok (.query q) → Shape.ofQuery q = .ok shape →
      q.body = .select block → (rewrittenQuery metadata shape q).body = .select after →
      (∀ qualifier column, qualifier ≠ [] → qualifier ++ [column] ∈ q.references →
        ∃ i, Denotes (relations block) (Name.key qualifier) i) →
      ∀ qualifier column i, qualifier ≠ [] → qualifier ++ [column] ∈ q.references →
        Denotes (relations block) (Name.key qualifier) i →
        ∃ next, (renamingOf metadata shape).path (qualifier ++ [column]) = next ++ [column] ∧
          Denotes (relations after) (Name.key next) i := by
  intro always_kept
  have denoted := first_denoted "tbl2" (by decide)
  have every : ∀ qualifier column, qualifier ≠ [] →
      qualifier ++ [column] ∈ (besideAlias "tbl2").references →
        ∃ i, Denotes (relations (besideBlock "tbl2")) (Name.key qualifier) i := by
    intro qualifier column qualified member
    have only : qualifier ++ [column] = [⟨"tbl", none⟩] ++ [⟨"fid", none⟩] :=
      List.mem_singleton.mp member
    obtain ⟨rfl, -⟩ := List.append_inj' only rfl
    exact ⟨0, denoted⟩
  obtain ⟨next, renamed, kept⟩ := always_kept renamedOnly "select tbl.fid from tbl, other as tbl2" _ _ _
    (besideBlock "tbl2") _
    (rewrite_accepted.mpr ⟨_, _, taken_parsed, beside_walked "tbl2", rfl⟩) taken_parsed
    (beside_walked "tbl2") rfl rfl every [⟨"tbl", none⟩] ⟨"fid", none⟩ 0 (by simp)
    (List.mem_singleton.mpr rfl) denoted
  obtain rfl : [⟨"tbl2", none⟩] = next := List.append_cancel_right renamed
  exact absurd (kept.alone 1 _ rfl rfl) (by decide)

end

end TripleTable.Partition
