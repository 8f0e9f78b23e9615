import Mathlib.Data.List.Forall2
import TripleTable.Proofs.Partition.Rewriting
import TripleTable.Proofs.Sql.Occurrences
set_option autoImplicit false

/-!
What a rewriting leaves as it is: the condition up to the constraints behind it, and the rest of
the statement up to the names that are replaced.
-/
namespace TripleTable.Partition
open Sql
open Shape (Regrouped renamedBlock)

-- The terms of a conjunction. Parentheses end it.
def conjuncts : Expr → List Expr
  | .binary left .and right => conjuncts left ++ conjuncts right
  | e => [e]

def conjunctsOf : Option Expr → List Expr
  | none => []
  | some condition => conjuncts condition

-- What can be said of whether a condition admits a row, whatever the comparisons mean.
structure Connects (admits : Expr → Prop) : Prop where
  and : ∀ left right, admits (.binary left .and right) ↔ admits left ∧ admits right
  or : ∀ left right, admits (.binary left .or right) ↔ admits left ∨ admits right
  nested : ∀ inner, admits (.nested inner) ↔ admits inner

def Admitted (admits : Expr → Prop) (selection : Option Expr) : Prop :=
  ∀ condition ∈ selection, admits condition

/-! ### Conditions -/

theorem conjuncts_rename (r : Renaming) (e : Expr) :
    conjuncts (e.rename r) = (conjuncts e).map (Expr.rename r) := by
  cases e with
  | binary left op right =>
    cases op with
    | and =>
      simp only [Expr.rename, conjuncts, List.map_append, conjuncts_rename r left,
        conjuncts_rename r right]
    | _ => rfl
  | _ => rfl

theorem conjuncts_renamed (r : Renaming) (selection : Option Expr) :
    conjunctsOf (renameSelection r selection) = (conjunctsOf selection).map (Expr.rename r) := by
  cases selection with
  | none => rfl
  | some condition => exact conjuncts_rename r condition

theorem conjunction_conjuncts (conditions : List Expr) (selection : Option Expr) :
    conjunctsOf (conjunction selection conditions) =
      conjunctsOf selection ++ conditions.flatMap conjuncts := by
  induction conditions generalizing selection with
  | nil => simp [conjunction]
  | cons added rest ih =>
    cases selection with
    | none =>
      rw [conjunction, ih]
      rfl
    | some condition =>
      rw [conjunction, ih, List.flatMap_cons, ← List.append_assoc]
      rfl

theorem conditions_conjuncts (constraints : List Constraint) :
    (constraints.map Constraint.condition).flatMap conjuncts =
      constraints.map Constraint.condition := by
  induction constraints with
  | nil => rfl
  | cons c rest ih => rw [List.map_cons, List.flatMap_cons, ih]; rfl

theorem regrouped_refl (list : List Expr) : List.Forall₂ Regrouped list list :=
  List.forall₂_same.mpr fun e _ => .refl e

theorem regrouped_trans {first second third : List Expr}
    (here : List.Forall₂ Regrouped first second) (there : List.Forall₂ Regrouped second third) :
    List.Forall₂ Regrouped first third := by
  induction here generalizing third with
  | nil => exact there
  | cons head _ ih =>
    cases there with
    | cons next rest => exact .cons (.trans head next) (ih rest)

-- Chains of AND disappear in the list of terms, so only their insides are regrouped.
theorem regrouped_conjuncts {e other : Expr} (same : Regrouped e other) :
    List.Forall₂ Regrouped (conjuncts e) (conjuncts other) := by
  induction same with
  | refl e => exact regrouped_refl _
  | nested same _ => exact .cons (.nested same) .nil
  | connective connective left right left_terms right_terms =>
    rcases connective with rfl | rfl
    · exact List.rel_append left_terms right_terms
    · exact .cons (.connective (.inr rfl) left right) .nil
  | rotate a b c connective =>
    rcases connective with rfl | rfl
    · rw [conjuncts, conjuncts, conjuncts, conjuncts, List.append_assoc]
      exact regrouped_refl _
    · exact .cons (.rotate a b c (.inr rfl)) .nil
  | trans _ _ first second => exact regrouped_trans first second

theorem Connects.regrouped {admits : Expr → Prop} (connects : Connects admits) {e other : Expr}
    (same : Regrouped e other) : admits other ↔ admits e := by
  induction same with
  | refl e => exact Iff.rfl
  | nested _ inner => rw [connects.nested, connects.nested, inner]
  | connective connective _ _ left right =>
    rcases connective with rfl | rfl
    · rw [connects.and, connects.and, left, right]
    · rw [connects.or, connects.or, left, right]
  | rotate a b c connective =>
    rcases connective with rfl | rfl
    · simp only [connects.and, and_assoc]
    · simp only [connects.or, or_assoc]
  | trans _ _ first second => exact second.trans first

theorem Connects.conjunction {admits : Expr → Prop} (connects : Connects admits)
    (conditions : List Expr) (selection : Option Expr) :
    Admitted admits (conjunction selection conditions) ↔
      Admitted admits selection ∧ ∀ condition ∈ conditions, admits condition := by
  induction conditions generalizing selection with
  | nil => simp [Partition.conjunction]
  | cons added rest ih =>
    cases selection with
    | none =>
      rw [Partition.conjunction, ih]
      simp [Admitted]
    | some condition =>
      rw [Partition.conjunction, ih]
      simp [Admitted, connects.and, and_assoc]

theorem regrouped_selection {selection other : Option Expr}
    (same : Option.Rel Regrouped selection other) :
    List.Forall₂ Regrouped (conjunctsOf selection) (conjunctsOf other) := by
  cases same with
  | none => exact .nil
  | some same => exact regrouped_conjuncts same

theorem Connects.regrouped_selection {admits : Expr → Prop} (connects : Connects admits)
    {selection other : Option Expr} (same : Option.Rel Regrouped selection other) :
    Admitted admits other ↔ Admitted admits selection := by
  cases same with
  | none => exact Iff.rfl
  | some same => simp [Admitted, connects.regrouped same]

theorem renamed_selection (r : Renaming) (block : Select) :
    (renamedBlock r block).selection = renameSelection r block.selection := by
  obtain ⟨head, projection, target, sources, views, selection, tail⟩ := block
  rfl

/-! ### The rest of the statement -/

-- The tables of wildcards are kept apart from the other names: renaming takes only those of the
-- outermost projection.
def withoutTable : Item → Item
  | .qualifiedWildcard _ options => .qualifiedWildcard [] options
  | .parts parts => .parts parts

def wildcardTable? : Item → Option Name
  | .qualifiedWildcard name _ => some name
  | .parts _ => none

def wildcardTables (block : Select) : List Name := block.projection.filterMap wildcardTable?

-- The query without its condition and without the tables of its wildcards.
def frame (q : Query) (block : Select) : Query :=
  { q with
    body := .select
      { block with projection := block.projection.map withoutTable, selection := none } }

def renamedItems (r : Renaming) (items : List Item) : List Item :=
  (renameItems r items).map (Item.renameWildcard r)

theorem renamed_items_outline (r : Renaming) (items : List Item) :
    itemsOutline ((renamedItems r items).map withoutTable) =
      itemsOutline (items.map withoutTable) := by
  induction items with
  | nil => rfl
  | cons item rest ih =>
    have same : (withoutTable ((item.rename r).renameWildcard r)).outline =
        (withoutTable item).outline := by
      cases item with
      | parts parts => exact congrArg Item.parts (parts_outline_rename r parts)
      | qualifiedWildcard name options =>
        exact congrArg (Item.qualifiedWildcard []) (parts_outline_rename r options)
    simp only [renamedItems, renameItems, List.map_cons, itemsOutline, same] at ih ⊢
    rw [ih]

theorem without_table_occurrences (items : List Item) :
    itemsOccurrences (items.map withoutTable) = itemsOccurrences items := by
  induction items with
  | nil => rfl
  | cons item rest ih =>
    have same : (withoutTable item).occurrences = item.occurrences := by cases item <;> rfl
    simp only [List.map_cons, itemsOccurrences, same, ih]

theorem renamed_items_tables (r : Renaming) (items : List Item) :
    (renamedItems r items).filterMap wildcardTable? =
      (items.filterMap wildcardTable?).map r.qualifier := by
  induction items with
  | nil => rfl
  | cons item rest ih =>
    cases item with
    | parts parts => exact ih
    | qualifiedWildcard name options => exact congrArg (r.qualifier name :: ·) ih

section
variable (r : Renaming) {q : Query} {block : Select}

theorem frame_outline (body : q.body = .select block) (selection : Option Expr) :
    (frame (q.renameTables r) { renamedBlock r block with selection }).outline =
      (frame q block).outline := by
  obtain ⟨ctes, _, tail⟩ := q
  obtain ⟨head, projection, target, sources, views, old, after⟩ := block
  cases body
  simp only [frame, Query.renameTables, Query.rename, renamedBlock, Select.rename, Query.outline,
    Body.outline, Select.outline, selectionOutline, parts_outline_rename, sources_outline_rename]
  rw [← renamed_items_outline r projection, renamedItems]

theorem frame_occurrences (body : q.body = .select block) (selection : Option Expr) :
    (frame (q.renameTables r) { renamedBlock r block with selection }).occurrences =
      (frame q block).occurrences.map (Occurrence.rename r) := by
  obtain ⟨ctes, _, tail⟩ := q
  obtain ⟨head, projection, target, sources, views, old, after⟩ := block
  cases body
  simp only [frame, Query.renameTables, Query.rename, renamedBlock, Select.rename,
    Query.occurrences, Body.occurrences, Select.occurrences, selectionOccurrences,
    without_table_occurrences, wildcards_occurrences, parts_occurrences_rename,
    items_occurrences_rename, sources_occurrences_rename, List.map_append, List.map_nil]

theorem renamed_wildcards (block : Select) (selection : Option Expr) :
    wildcardTables { renamedBlock r block with selection } =
      (wildcardTables block).map r.qualifier := by
  obtain ⟨head, projection, target, sources, views, old, after⟩ := block
  exact renamed_items_tables r projection

end

theorem rewriting_keeps_frame {metadata : Metadata} {sql : Text} {outcome : Outcome} {q again : Query}
    {shape : Shape} {block : Select} (rewritten : rewrite (.ok metadata) sql = .ok outcome)
    (changed : outcome.substitutions ≠ []) (parsed : parseStatement sql = .ok (.query q))
    (walked : Shape.ofQuery q = .ok shape) (body : q.body = .select block)
    (parsed_again : parseStatement (emitted metadata shape q).text = .ok (.query again))
    (grouped : Shape.QueryRegrouped (emitted metadata shape q) again) :
    ∃ after, parseStatement outcome.sql = .ok (.query again) ∧ again.body = .select after ∧
      List.Forall₂ Regrouped
        ((conjunctsOf block.selection).map (Expr.rename (renamingOf metadata shape)) ++
          outcome.constraints.map Constraint.condition) (conjunctsOf after.selection) ∧
      (frame again after).outline = (frame q block).outline ∧
      (frame again after).occurrences =
        (frame q block).occurrences.map (Occurrence.rename (renamingOf metadata shape)) ∧
      wildcardTables after = (wildcardTables block).map (renamingOf metadata shape).qualifier ∧
      ∀ admits, Connects admits →
        (Admitted admits after.selection ↔
          Admitted admits (renameSelection (renamingOf metadata shape) block.selection) ∧
            ∀ c ∈ outcome.constraints, admits c.condition) := by
  obtain ⟨found, known, same, same_shape, query⟩ := rewrite_accepted.mp rewritten
  obtain rfl := Statement.query.inj (Except.ok.inj (parsed.symm.trans same))
  obtain rfl := Except.ok.inj (walked.symm.trans same_shape)
  obtain ⟨-, read, -, selection, rfl, regrouped⟩ :=
    read_back query changed walked body parsed_again grouped
  rw [renamed_selection] at regrouped
  refine ⟨_, read, rfl, ?_, frame_outline _ body selection, frame_occurrences _ body selection,
    renamed_wildcards _ block selection, fun admits connects => ?_⟩
  · have terms := regrouped_selection regrouped
    rwa [conjunction_conjuncts, conditions_conjuncts, conjuncts_renamed] at terms
  · rw [connects.regrouped_selection regrouped, connects.conjunction, List.forall_mem_map]

section
theorem bounded_query_framed :
    ∃ outcome again after,
      rewrite (.ok shards) "SELECT * FROM tbl WHERE fid < 60000" = .ok outcome ∧
      outcome.substitutions ≠ [] ∧ parseStatement outcome.sql = .ok (.query again) ∧
      again.body = .select after ∧
      List.Forall₂ Regrouped
        [belowBound, .nested (.binary (part 0) .or (.binary (part 1) .or (part 2)))]
        (conjunctsOf after.selection) ∧
      ∀ admits, Connects admits → Admitted admits after.selection → admits belowBound := by
  have walked : Shape.ofQuery (wholeTable "tbl" belowBound) = .ok boundShape := rfl
  obtain ⟨outcome, rewritten, changed, constraints⟩ : ∃ outcome,
      rewrite (.ok shards) "SELECT * FROM tbl WHERE fid < 60000" = .ok outcome ∧
        outcome.substitutions ≠ [] ∧ outcome.constraints = [⟨"shard.part", [0, 1, 2]⟩] :=
    ⟨_, rewrite_accepted.mpr ⟨_, _, bound_parsed, walked, rfl⟩, by decide, by decide +kernel⟩
  have grouped : Shape.QueryRegrouped (emitted shards boundShape (wholeTable "tbl" belowBound))
      (wholeTable "shard" (.binary belowBound .and
        (.nested (.binary (.binary (part 0) .or (part 1)) .or (part 2))))) := by
    rw [bound_emitted]
    refine .inr ⟨_, _, _, rfl, rfl, ?_, rfl⟩
    exact .connective (.inl rfl) (.refl _) (.nested (.rotate _ _ _ (.inr rfl)))
  obtain ⟨after, read, body, terms, -, -, -, admitted⟩ :=
    rewriting_keeps_frame rewritten changed bound_parsed walked rfl parts_parsed grouped
  have condition : Constraint.condition ⟨"shard.part", [0, 1, 2]⟩ =
      .nested (.binary (part 0) .or (.binary (part 1) .or (part 2))) := by
    simp [Constraint.condition, disjunction?, part]
  rw [constraints, List.map_singleton, condition] at terms
  refine ⟨outcome, _, after, rewritten, changed, read, body, terms, fun admits connects holds => ?_⟩
  exact ((admitted admits connects).mp holds).1 _ rfl

-- The alias of a join in parentheses is not among those that hide a table.
def joinedOn (left right : String) : List Part :=
  [.words " ON ", .operand (.binary (.path [⟨left, none⟩, ⟨"id", none⟩]) (.compare .eq)
    (.path [⟨right, none⟩, ⟨"id", none⟩]))]

def aliasedJoin : Query :=
  let inner : Source :=
    ⟨⟨.table [⟨"a", none⟩] [], none, []⟩,
      [⟨" JOIN ", ⟨.table [⟨"b", none⟩] [], none, []⟩, joinedOn "a" "b"⟩]⟩
  ⟨[], .select ⟨[], [.parts [.operand (.path [⟨"tbl", none⟩, ⟨"x", none⟩])]], [],
    [⟨⟨.nested inner, some ⟨⟨"tbl", none⟩, []⟩, []⟩,
      [⟨" JOIN ", ⟨.table [⟨"tbl", none⟩] [], some ⟨⟨"t", none⟩, []⟩, []⟩, joinedOn "t" "tbl"⟩]⟩],
    [], none, []⟩, [.words []]⟩

def aliasedJoinText : Text :=
  "select tbl.x from (a join b on a.id = b.id) as tbl join tbl as t on t.id = tbl.id"

def onTokens (left right : String) : List Token :=
  [plainWord "on", plainWord left, .symbol ".", plainWord "id", .symbol "=", plainWord right,
    .symbol ".", plainWord "id"]

set_option maxRecDepth 10000 in
theorem aliased_join_parsed : parseStatement aliasedJoinText = .ok (.query aliasedJoin) := by
  have lexed : tokens? aliasedJoinText =
      some ([plainWord "select", plainWord "tbl", .symbol ".", plainWord "x", plainWord "from",
        .symbol "(", plainWord "a", plainWord "join", plainWord "b"] ++ onTokens "a" "b" ++
        [.symbol ")", plainWord "as", plainWord "tbl", plainWord "join", plainWord "tbl",
        plainWord "as", plainWord "t"] ++ onTokens "t" "tbl") := by
    decide +kernel
  rw [parseStatement, parseStatements, lexed]
  rfl

def renamedTable : Metadata := ⟨[⟨"tbl", 1, "tbl2"⟩], []⟩

theorem join_alias_replaced :
    ∃ outcome, rewrite (.ok renamedTable) aliasedJoinText = .ok outcome ∧
      outcome.sql =
        "SELECT tbl2.x FROM (a JOIN b ON a.id = b.id) AS tbl JOIN tbl2 AS t ON t.id = tbl2.id".toList :=
  ⟨_, rewrite_accepted.mpr ⟨_, _, aliased_join_parsed, rfl, rfl⟩, by decide +kernel⟩

end

end TripleTable.Partition
