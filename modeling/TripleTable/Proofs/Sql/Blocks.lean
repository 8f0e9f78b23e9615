import TripleTable.Partition.Rewrite
import TripleTable.Proofs.Sql.Lexing
import TripleTable.Proofs.Sql.Relations
set_option autoImplicit false

/-!
How the grammar reads a whole statement over joined tables, up to the end of its text.
-/
namespace TripleTable.Sql

abbrev ItemEnds : List Token → Prop := Next [","] ["FROM"].contains

namespace Grammar
open Sql.Parser

section
variable {printed : Bool} {rest : List Token}

theorem item_ends_closes {tokens : List Token} (ends : ItemEnds tokens) : Closes tokens :=
  next_among ends (by simp) (by simp)

theorem names_no_wildcard (ends : ItemEnds rest) (more : Name) (n : Nat) :
    wildcard.names n ((more.flatMap fun next => [.symbol ".", .word next]) ++ rest) = none := by
  have period := next_symbol ends "." (by decide)
  induction more generalizing n with
  | nil =>
    cases n with
    | zero => rfl
    | succ n =>
      simp only [List.flatMap_nil, List.nil_append, wildcard.names, bind_run, symbol, period,
        Option.bind_some, Bool.false_eq_true, if_false, failure_run, Option.bind_none]
  | cons name more ih =>
    cases n with
    | zero => rfl
    | succ n =>
      have star : ∀ tokens, symbol? "*" (.word name :: tokens) =
          some (false, .word name :: tokens) := fun _ => rfl
      have column : ∀ tokens, ident (.word name :: tokens) = some (name, tokens) := fun _ => rfl
      simp only [List.flatMap_cons, List.cons_append, List.nil_append, wildcard.names, bind_run,
        symbol, symbol_read, star, column, ih, pure_run, Option.bind_some, Option.bind_none,
        Bool.false_eq_true, if_false, if_true]

theorem name_no_wildcard (name : Ident) (more : Name) (ends : ItemEnds rest) :
    attempt wildcard (Name.tokens (name :: more) ++ rest) =
      some (none, Name.tokens (name :: more) ++ rest) := by
  refine attempt_none ?_
  rw [name_tokens_cons, List.cons_append]
  simp only [wildcard, wildcard.restOf, bind_run, Parser.next, Option.bind_some,
    names_no_wildcard ends, Option.bind_none]

theorem side_no_wildcard {side : Side} (ends : ItemEnds rest) :
    attempt wildcard (side.tokens ++ rest) = some (none, side.tokens ++ rest) := by
  cases side with
  | column table name => exact name_no_wildcard ⟨table, none⟩ [⟨name, none⟩] ends
  | string value =>
    have tokens : (Side.string value).tokens ++ rest = .string value :: rest := rfl
    have stops : ∀ n, wildcard.names n rest = none := names_no_wildcard ends []
    refine attempt_none ?_
    simp only [tokens, wildcard, wildcard.restOf, bind_run, Parser.next, Option.bind_some, stops,
      Option.bind_none]

theorem no_column_alias (ends : ItemEnds rest) :
    aliasName reservedAfterColumn rest = some (none, rest) := by
  have as := next_keyword ends "AS" (by decide)
  have name : seesKeyword reservedAfterColumn rest = some (true, rest) ∨
      (seesKeyword reservedAfterColumn rest = some (false, rest) ∧
        attempt ident rest = some (none, rest)) := by
    match rest, ends with
    | [], _ => exact Or.inr ⟨rfl, rfl⟩
    | .symbol _ :: _, _ => exact Or.inr ⟨rfl, rfl⟩
    | .word name :: _, (ends : ["FROM"].contains name.keyword = true) =>
      have same : name.keyword = "FROM" := by simpa using ends
      refine Or.inl ?_
      simp only [seesKeyword, sees, List.head?_cons, Option.any_some, same]
      rfl
  rcases name with reserved | ⟨free, none⟩
  · simp only [aliasName, bind_run, pure_run, as, reserved, Option.bind_some, Bool.false_eq_true,
      if_false, if_true]
  · simp only [aliasName, bind_run, as, free, none, Option.bind_some, Bool.false_eq_true, if_false]

theorem item_read {g h : Grammar} {tokens : List Token} {e : Expr} (inner : g.expr = h.wholeExpr)
    (legible : Legible h tokens e)
    (wild : attempt wildcard (tokens ++ rest) = some (none, tokens ++ rest))
    (ends : ItemEnds rest) : g.item (tokens ++ rest) = some (.parts [.operand e], rest) := by
  simp only [item, bind_run, pure_run, wild, inner, legible.whole (item_ends_closes ends),
    no_column_alias ends, Option.bind_some]

abbrev SourcesEnd : List Token → Prop := Next [] ["WHERE"].contains

theorem sources_end_join {tokens : List Token} (ends : SourcesEnd tokens) : JoinEnds tokens :=
  next_among ends (by simp) (by simp)

theorem sources_end_source {tokens : List Token} (ends : SourcesEnd tokens) : SourceEnds tokens :=
  next_among ends (by simp) (by simp)

theorem join_ends_join (rest : List Token) : JoinEnds (keywordToken printed "join" :: rest) :=
  next_named join_keyword (by simp) rest

variable {p : PlainSelect}

theorem joins_read {g h : Grammar} (inner : g.expr = h.wholeExpr) (named : p.Named)
    (source : Parser Source) (ends : SourcesEnd rest) :
    many (g.join (g.relation source)) (p.joins.flatMap (PlainJoin.tokens printed) ++ rest) =
      some (p.joins.map PlainJoin.join, rest) := by
  have reads : ∀ j ∈ p.joins, ∀ rest, JoinEnds rest →
      g.join (g.relation source) (j.tokens printed ++ rest) = some (some j.join, rest) := by
    intro j member rest ends
    exact join_read inner (fun _ => relation_read printed g source (named.joined j member))
      (named.some_condition j member) (named.conditions j member) ends
  have leads : ∀ j ∈ p.joins, ∀ rest, JoinEnds (j.tokens printed ++ rest) := fun j _ rest =>
    join_ends_join _
  have inhabited : ∀ j ∈ p.joins, j.tokens printed ≠ [] := by
    intro j _
    simp [PlainJoin.tokens]
  exact many_read reads leads (sources_end_join ends)
    (join_none g _ (sources_end_source ends)) inhabited

theorem joins_ends (printed : Bool) (joins : List PlainJoin) (ends : SourcesEnd rest) :
    JoinEnds (joins.flatMap (PlainJoin.tokens printed) ++ rest) := by
  cases joins with
  | nil => exact sources_end_join ends
  | cons j joins => exact join_ends_join _

theorem from_keyword : Ident.keyword ⟨spell printed "from", none⟩ = "FROM" := by
  cases printed <;> decide

theorem sources_read {g h : Grammar} (inner : g.expr = h.wholeExpr) (named : p.Named)
    (ends : SourcesEnd rest) :
    g.sources (p.sourcesTokens printed ++ rest) = some ([p.source], rest) := by
  have comma := next_symbol ends "," (by decide)
  have source : ∀ n, g.source (n + 1) (p.table.tokens printed ++
      (p.joins.flatMap (PlainJoin.tokens printed) ++ rest)) = some (p.source, rest) := by
    intro n
    have table := relation_read printed g (g.source n) named.table
      (join_ends_table (joins_ends printed p.joins ends))
    simp only [Grammar.source, bind_run, pure_run, table, joins_read inner named _ ends,
      Option.bind_some, PlainSelect.source]
  have tokens : p.sourcesTokens printed ++ rest = keywordToken printed "from" ::
      (p.table.tokens printed ++ (p.joins.flatMap (PlainJoin.tokens printed) ++ rest)) := by
    rw [PlainSelect.sourcesTokens, List.cons_append, List.append_assoc]
  have read : ∀ tokens, keyword? "FROM" (keywordToken printed "from" :: tokens) =
      some (true, tokens) := keyword_read from_keyword
  rw [tokens]
  simp only [sources, after?, commaSeparated, items, itemsUpTo, bind_run, pure_run, read, source,
    comma, Option.bind_some, Bool.false_eq_true, if_false, if_true, Option.getD_some]

theorem side_keyword {side : Side} (number : side.Numbered) (word : String)
    (plain : numbered word = false) (rest : List Token) :
    keyword? word (side.tokens ++ rest) = some (false, side.tokens ++ rest) := by
  cases side with
  | column table name => exact next_keyword (numbered_next number _) word plain
  | string value => rfl

theorem items_keyword (named : p.Named) (word : String) (plain : numbered word = false)
    (rest : List Token) :
    keyword? word (p.itemsTokens ++ rest) = some (false, p.itemsTokens ++ rest) := by
  have numbers := named.items
  have inhabited := named.some_item
  unfold PlainSelect.itemsTokens
  cases items : p.items with
  | nil => exact absurd items inhabited
  | cons first more =>
    have number := numbers first (by simp [items])
    cases more with
    | nil =>
      simpa using side_keyword number word plain rest
    | cons second more =>
      simp only [List.map_cons, List.intercalate_cons_cons, List.append_assoc]
      exact side_keyword number word plain _

theorem projection_read {g h : Grammar} (inner : g.expr = h.wholeExpr) (named : p.Named)
    (rest : List Token) :
    commaSeparated g.item (p.itemsTokens ++ (p.sourcesTokens printed ++ rest)) =
      some (p.items.map fun side => .parts [.operand side.expr],
        p.sourcesTokens printed ++ rest) := by
  have stops : ItemEnds (p.sourcesTokens printed ++ rest) := next_named from_keyword (by simp) _
  have comma : ∀ rest, ItemEnds (.symbol "," :: rest) := by simp [Next]
  exact items_read (fun side member rest ends =>
    item_read inner (side_legible h (named.items side member)) (side_no_wildcard ends) ends) comma
    stops rfl named.some_item

theorem distinct_keyword : Ident.keyword ⟨spell printed "distinct", none⟩ = "DISTINCT" := by
  cases printed <;> decide

theorem no_distinct {tokens : List Token} (g : Grammar)
    (absent : ∀ word ∈ ["ALL", "DISTINCT"], keyword? word tokens = some (false, tokens)) :
    g.distinct tokens = some (none, tokens) := by
  simp only [distinct, bind_run, pure_run, absent "ALL" (by decide), absent "DISTINCT" (by decide),
    Option.bind_some, Bool.false_eq_true, if_false]

theorem distinct_read (g : Grammar) (named : p.Named) (rest : List Token) :
    g.distinct (p.distinctTokens printed ++ (p.itemsTokens ++ rest)) =
      some (if p.distinct then some [.words " DISTINCT"] else none, p.itemsTokens ++ rest) := by
  have absent := fun word plain => items_keyword named word plain rest
  unfold PlainSelect.distinctTokens
  cases marked : p.distinct with
  | false =>
    have numbers : ∀ word ∈ ["ALL", "DISTINCT"], numbered word = false := by decide
    exact no_distinct g fun word member => absent word (numbers word member)
  | true =>
    have all : keyword? "ALL" (keywordToken printed "distinct" :: (p.itemsTokens ++ rest)) =
        some (false, keywordToken printed "distinct" :: (p.itemsTokens ++ rest)) := by
      have other : Ident.keyword ⟨spell printed "distinct", none⟩ ≠ "ALL" := by
        rw [distinct_keyword]
        decide
      rw [keywordToken, nameToken, keyword?, if_neg other]
    have read : keyword? "DISTINCT" (keywordToken printed "distinct" :: (p.itemsTokens ++ rest)) =
        some (true, p.itemsTokens ++ rest) := keyword_read distinct_keyword _
    simp only [distinct, bind_run, pure_run, all, read, absent "ON" (by decide), Option.bind_some,
      List.cons_append, List.nil_append, Bool.false_eq_true, if_false, if_true]

theorem where_keyword : Ident.keyword ⟨spell printed "where", none⟩ = "WHERE" := by
  cases printed <;> decide

theorem filters_end (printed : Bool) (p : PlainSelect) : SourcesEnd (p.filtersTokens printed) := by
  unfold PlainSelect.filtersTokens
  by_cases absent : p.filters = []
  · rw [if_pos absent]
    trivial
  · rw [if_neg absent]
    exact next_named where_keyword (by simp) _

theorem filters_read {g h : Grammar} (inner : g.expr = h.wholeExpr) (named : p.Named) :
    after? "WHERE" g.expr (p.filtersTokens printed) = some (Equality.all p.filters, []) := by
  unfold PlainSelect.filtersTokens
  by_cases absent : p.filters = []
  · rw [if_pos absent, absent]
    rfl
  · have closes : Closes [] := trivial
    obtain ⟨e, all, condition⟩ := whole_all printed h absent named.filters closes
    have read : keyword? "WHERE"
        (keywordToken printed "where" :: Equality.allTokens printed p.filters) =
          some (true, Equality.allTokens printed p.filters) := keyword_read where_keyword _
    rw [List.append_nil] at condition
    simp only [if_neg absent, after?, bind_run, pure_run, read, inner, condition, all,
      Option.bind_some, if_true]

end

-- The clauses in the order of the block, and none behind WHERE.
theorem clauses_read {g : Grammar} {tokens front middle back : List Token}
    {head : Option (List Part)} {projection : List Item} {sources : List Source}
    {selection : Option Expr} (distinct : g.distinct tokens = some (head, front))
    (top : g.top front = some ([], front))
    (items : commaSeparated g.item front = some (projection, middle))
    (begins : Next [] ["FROM"].contains middle) (tables : g.sources middle = some (sources, back))
    (ends : SourcesEnd back) (filters : after? "WHERE" g.expr back = some (selection, [])) :
    g.select tokens =
      some (⟨head.getD [], projection, [], sources, [], selection, []⟩, []) := by
  have target : target middle = some ([], middle) := by
    have absent := next_keyword begins "INTO" (by decide)
    simp only [Grammar.target, bind_run, pure_run, absent, Option.bind_some, Bool.false_eq_true,
      if_false]
  have view : g.lateralView back = some (none, back) := by
    have absent := next_keywords ends "LATERAL" ["VIEW"] (by decide)
    simp only [lateralView, bind_run, pure_run, absent, Option.bind_some, Bool.false_eq_true,
      if_false]
  have grouping : g.grouping [] = some ([], []) := rfl
  have clause : ∀ first more lead, g.clause (first :: more) lead [] = some ([], []) :=
    fun _ _ _ => rfl
  have condition : ∀ first lead, g.condition first lead [] = some ([], []) := fun _ _ => rfl
  have windows : g.windows [] = some ([], []) := rfl
  refine (bind_step distinct).trans ?_
  refine (bind_step top).trans ?_
  refine (bind_step items).trans ?_
  refine (bind_step target).trans ?_
  refine (bind_step tables).trans ?_
  refine (bind_step (many_none view)).trans ?_
  refine (bind_step filters).trans ?_
  refine (bind_step grouping).trans ?_
  refine (bind_step (clause _ _ _)).trans ?_
  refine (bind_step (clause _ _ _)).trans ?_
  refine (bind_step (clause _ _ _)).trans ?_
  refine (bind_step (condition _ _)).trans ?_
  refine (bind_step windows).trans ?_
  refine (bind_step (condition _ _)).trans ?_
  rw [pure_run, List.append_nil]
  rfl

theorem no_top {tokens : List Token} (g : Grammar)
    (absent : keyword? "TOP" tokens = some (false, tokens)) : g.top tokens = some ([], tokens) := by
  simp only [Grammar.top, bind_run, pure_run, absent, Option.bind_some, Bool.false_eq_true,
    if_false]

theorem from_begins (printed : Bool) (rest : List Token) :
    Next [] ["FROM"].contains (keywordToken printed "from" :: rest) :=
  next_named from_keyword (by simp) rest

section
variable {printed : Bool} {p : PlainSelect}

theorem select_read {g h : Grammar} (inner : g.expr = h.wholeExpr) (named : p.Named) :
    g.select (p.distinctTokens printed ++ (p.itemsTokens ++
      (p.sourcesTokens printed ++ p.filtersTokens printed))) = some (p.block, []) := by
  have head : (if p.distinct then some [Part.words " DISTINCT"] else none).getD [] =
      if p.distinct then [Part.words " DISTINCT"] else [] := by
    cases p.distinct <;> rfl
  refine (clauses_read (distinct_read g named _)
    (no_top g (items_keyword named "TOP" (by decide) _)) (projection_read inner named _)
    (from_begins printed _) (sources_read inner named (filters_end printed p))
    (filters_end printed p) (filters_read inner named)).trans ?_
  rw [head]
  rfl

end

section
variable {printed : Bool} {tokens : List Token} {block : Select}

theorem select_keyword : Ident.keyword ⟨spell printed "select", none⟩ = "SELECT" := by
  cases printed <;> decide

theorem select_begins (rest : List Token) :
    Next [] ["SELECT"].contains (keywordToken printed "select" :: rest) :=
  next_named select_keyword (by simp) rest

theorem query_read {g : Grammar} (select : g.select tokens = some (block, [])) :
    g.wholeQuery (keywordToken printed "select" :: tokens) =
      some (⟨[], .select block, [.words []]⟩, []) := by
  have begins : Next [] ["SELECT"].contains (keywordToken printed "select" :: tokens) :=
    select_begins _
  have absent := fun word other => next_keyword begins word other
  have ctes : g.commonTables (keywordToken printed "select" :: tokens) =
      some ([], keywordToken printed "select" :: tokens) := by
    simp only [commonTables, bind_run, pure_run, absent "WITH" (by decide), Option.bind_some,
      Bool.false_eq_true, if_false]
  have change : g.changeBody (keywordToken printed "select" :: tokens) =
      some (none, keywordToken printed "select" :: tokens) := by
    simp only [changeBody, bind_run, pure_run, absent "INSERT" (by decide),
      absent "UPDATE" (by decide), Option.bind_some, Bool.false_eq_true, if_false]
  have body : ∀ n, g.body (n + 1) 0 (keywordToken printed "select" :: tokens) =
      some (.select block, []) := by
    intro n
    have read : keyword? "SELECT" (keywordToken printed "select" :: tokens) = some (true, tokens) :=
      keyword_read select_keyword _
    simp only [Grammar.body, plainBody, bind_run, pure_run, read, select, Option.bind_some, if_true]
    rfl
  have order : g.orderBy " ORDER BY " [] = some ([], []) := rfl
  have limits : Limits.readRound g {} [] = some ({}, []) := rfl
  have clause : ∀ first more lead, g.clause (first :: more) lead [] = some ([], []) :=
    fun _ _ _ => rfl
  have fetch : fetch [] = some ([], []) := rfl
  have purposes : ∀ n, purposes (n + 1) [] = some ([], []) := fun _ => rfl
  simp only [wholeQuery, orderedBody, bind_run, pure_run, ctes, change, body, order, limits,
    clause, fetch, purposes, Option.bind_some]
  rfl

-- One level each for the statement, its query and the expressions in it.
theorem statement_read {n : Nat} (select : (ofDepth (n + 1)).select tokens = some (block, [])) :
    statement (n + 3) (keywordToken printed "select" :: tokens) =
      some (.query ⟨[], .select block, [.words []]⟩, []) := by
  have begins : Next [] ["SELECT"].contains (keywordToken printed "select" :: tokens) :=
    select_begins _
  have parenthesis := next_sees_symbol begins "(" (by decide)
  have query : (ofDepth (n + 2)).query (keywordToken printed "select" :: tokens) =
      some (⟨[], .select block, [.words []]⟩, []) := query_read select
  have keyword : seesKeyword ["SELECT", "WITH", "VALUES"] (keywordToken printed "select" :: tokens) =
      some (true, keywordToken printed "select" :: tokens) := by
    have member :
        ["SELECT", "WITH", "VALUES"].contains (Ident.keyword ⟨spell printed "select", none⟩) := by
      rw [select_keyword]
      decide
    exact congrArg (fun found => some (found, keywordToken printed "select" :: tokens)) member
  simp only [statement, bind_run, pure_run, parenthesis, keyword, query,
    Option.bind_some, Bool.false_eq_true, if_false, if_true]

theorem statements_read (select : (ofDepth 48).select tokens = some (block, [])) :
    statements (statement maxDepth) (keywordToken printed "select" :: tokens) =
      some ([.query ⟨[], .select block, [.words []]⟩], []) := by
  have statement : statement maxDepth (keywordToken printed "select" :: tokens) =
      some (.query ⟨[], .select block, [.words []]⟩, []) := statement_read select
  have kept : (keywordToken printed "select" :: tokens).dropWhile (· == .symbol ";") =
      keywordToken printed "select" :: tokens := rfl
  have before : atEnd (keywordToken printed "select" :: tokens) =
      some (false, keywordToken printed "select" :: tokens) := rfl
  have behind : atEnd [] = some (true, []) := rfl
  have modified : (modify (List.dropWhile (· == .symbol ";")) : Parser PUnit)
      (keywordToken printed "select" :: tokens) =
        some (.unit, keywordToken printed "select" :: tokens) := rfl
  simp only [statements, statementsUpTo, bind_run, pure_run, modified, before, behind,
    statement, Option.bind_some, Bool.false_eq_true, if_false, if_true]

end

end Grammar

-- A text that consists of one block is read as a statement of its own.
theorem parse_select {printed : Bool} {tokens : List Token} {block : Select}
    (select : (Grammar.ofDepth 48).select tokens = some (block, [])) {text : Text}
    (lexes : LexesTo text (keywordToken printed "select" :: tokens)) :
    Partition.parseStatement text = .ok (.query ⟨[], .select block, [.words []]⟩) := by
  have read : parseStatements text = some [.query ⟨[], .select block, [.words []]⟩] := by
    simp only [parseStatements, lexes_all lexes, Grammar.statements_read select, bind,
      Option.bind_some, pure]
  rw [Partition.parseStatement, read]

theorem parse_plain_select {printed : Bool} {p : PlainSelect} (named : p.Named) {text : Text}
    (lexes : LexesTo text (p.tokens printed)) :
    Partition.parseStatement text = .ok (.query p.query) :=
  parse_select (Grammar.select_read (h := Grammar.ofDepth 47) rfl named) lexes

end TripleTable.Sql
