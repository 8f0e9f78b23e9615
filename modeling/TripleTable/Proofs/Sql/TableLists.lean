import TripleTable.Proofs.Sql.Blocks
import TripleTable.Proofs.Sql.Chains
set_option autoImplicit false

/-!
SELECT blocks over a list of tables whose names need no quotes: what they are printed as, and that
this text is read back as the block, with its condition grouped to the left.
-/
namespace TripleTable.Sql
open Shape (IsConnective Regrouped)

inductive ListedItem where
  | all
  | column (names : Name)

structure ListedTable where
  name : Name
  short : Option Text

structure ListedSelect where
  items : List ListedItem
  tables : List ListedTable
  selection : Option Expr

namespace ListedItem

def item : ListedItem → Item
  | all => .parts [.words "*"]
  | column names => .parts [.operand names.expr]

def tokens : ListedItem → List Token
  | all => [.symbol "*"]
  | column names => names.tokens

def Plain : ListedItem → Prop
  | all => True
  | column names => PlainPath names

instance : DecidablePred Plain
  | all => inferInstanceAs (Decidable True)
  | column names => inferInstanceAs (Decidable (PlainPath names))

end ListedItem

namespace ListedTable

def relation (t : ListedTable) : Relation :=
  ⟨.table t.name [], t.short.map fun short => ⟨⟨short, none⟩, []⟩, []⟩

def aliasTokens (t : ListedTable) : List Token :=
  match t.short with
  | some short => [keywordToken true "as", nameToken short]
  | none => []

def tokens (t : ListedTable) : List Token := t.name.tokens ++ t.aliasTokens

structure Plain (t : ListedTable) : Prop where
  name : PlainPath t.name
  short : ∀ short ∈ t.short, PlainPath [⟨short, none⟩]

instance : DecidablePred Plain := fun t =>
  decidable_of_iff (PlainPath t.name ∧ ∀ short ∈ t.short, PlainPath [⟨short, none⟩])
    ⟨fun ⟨name, short⟩ => ⟨name, short⟩, fun ⟨name, short⟩ => ⟨name, short⟩⟩

end ListedTable

namespace ListedSelect

def block (b : ListedSelect) : Select where
  head := []
  projection := b.items.map ListedItem.item
  target := []
  sources := b.tables.map fun t => ⟨t.relation, []⟩
  views := []
  selection := b.selection
  tail := []

def query (b : ListedSelect) : Query := ⟨[], .select b.block, [.words []]⟩

def itemsTokens (b : ListedSelect) : List Token :=
  [Token.symbol ","].intercalate (b.items.map ListedItem.tokens)

def tablesTokens (b : ListedSelect) : List Token :=
  keywordToken true "from" :: [Token.symbol ","].intercalate (b.tables.map ListedTable.tokens)

structure Plain (b : ListedSelect) : Prop where
  some_item : b.items ≠ []
  items : ∀ i ∈ b.items, i.Plain
  some_table : b.tables ≠ []
  tables : ∀ t ∈ b.tables, t.Plain

instance : DecidablePred Plain := fun b =>
  decidable_of_iff
    (b.items ≠ [] ∧ (∀ i ∈ b.items, i.Plain) ∧ b.tables ≠ [] ∧ ∀ t ∈ b.tables, t.Plain)
    ⟨fun ⟨some_item, items, some_table, tables⟩ => ⟨some_item, items, some_table, tables⟩,
      fun ⟨some_item, items, some_table, tables⟩ => ⟨some_item, items, some_table, tables⟩⟩

end ListedSelect

-- What stands behind a condition of the block: a blank, or nothing.
def EndsCondition (rest : Text) : Prop := ∀ c ∈ rest.head?, c = ' '

def Conjoined (g : Grammar) (e : Expr) : Prop :=
  ∃ first more, Chain g EndsCondition .and e first more

theorem Conjoined.both {g : Grammar} {left right : Expr} (front : Conjoined g left)
    (back : Conjoined g right) : Conjoined g (.binary left .and right) := by
  obtain ⟨first, more, front⟩ := front
  obtain ⟨second, others, back⟩ := back
  exact ⟨_, _, front.both (.inl rfl) (by simp [EndsCondition]) back⟩

/-! ### Its tokens -/

section
variable {rest : Text} {tokens : List Token}

theorem lexes_item {i : ListedItem} (plain : i.Plain) (ends : Ends rest)
    (lexes : LexesTo rest tokens) : LexesTo (i.item.text ++ rest) (i.tokens ++ tokens) := by
  cases i with
  | all => exact lexes_token (by decide) (by decide) rfl (Nat.le_refl _) lexes
  | column names =>
    have text : (ListedItem.column names).item.text = names.expr.text ++ [] := rfl
    rw [text, List.append_nil]
    exact path_printed plain _ _ ends lexes

theorem lexes_listed_table {t : ListedTable} (plain : t.Plain) (ends : Ends rest)
    (lexes : LexesTo rest tokens) :
    LexesTo ((⟨t.relation, []⟩ : Source).text ++ rest) (t.tokens ++ tokens) := by
  obtain ⟨name, short⟩ := t
  cases short with
  | none =>
    have text : (⟨(ListedTable.mk name none).relation, []⟩ : Source).text =
        name.text ++ [] ++ [] ++ [] ++ [] := rfl
    simpa [text, ListedTable.tokens, ListedTable.aliasTokens] using
      lexes_names plain.name.inhabited plain.name.bare ends lexes
  | some short =>
    have text : (⟨(ListedTable.mk name (some short)).relation, []⟩ : Source).text =
        name.text ++ [] ++ (" AS ".toList ++ (short ++ [])) ++ [] ++ [] := rfl
    have word := lexes_bare ((plain.short short rfl).bare _ List.mem_cons_self).2 ends lexes
    have as := lexes_blank (c := ' ') (by decide) (lexes_spelled true "as" (by decide) word)
    have whole := lexes_names plain.name.inhabited plain.name.bare (by simp [Ends]) as
    rw [text, show " AS ".toList = ' ' :: (spell true "as" ++ [' ']) by decide]
    simpa [ListedTable.tokens, ListedTable.aliasTokens, nameToken] using whole

end

theorem listed_text (b : ListedSelect) (some_table : b.tables ≠ []) :
    b.query.text = spell true "select" ++ ' ' ::
      (Text.join ", " (b.items.map fun i => i.item.text) ++ ' ' :: (spell true "from" ++ ' ' ::
        (Text.join ", " (b.tables.map fun t => (⟨t.relation, []⟩ : Source).text) ++
          selectionText b.selection))) := by
  have block : b.query.text = "SELECT".toList ++ [] ++ " ".toList ++
      itemsText (b.items.map ListedItem.item) ++ [] ++
        sourcesText (b.tables.map fun t => ⟨t.relation, []⟩) ++ [] ++ selectionText b.selection ++
          [] ++ [] := rfl
  rw [block, items_joined, sources_joined (by simpa using some_table), List.map_map, List.map_map,
    show "SELECT".toList = spell true "select" by decide,
    show " FROM ".toList = ' ' :: (spell true "from" ++ [' ']) by decide]
  simp [Function.comp_def]

-- The tokens of a condition and of what stands before it.
def whereTokens : Option (Phrase × List Phrase) → List Token
  | none => []
  | some (first, more) =>
    keywordToken true "where" :: (first.tokens ++ Phrase.chained BinaryOp.and.word more)

-- A condition that is absent, or printed as a chain.
inductive Filters (g : Grammar) : Option Expr → Option (Phrase × List Phrase) → Prop
  | absent : Filters g none none
  | chain {e : Expr} {first : Phrase} {more : List Phrase} :
    Chain g EndsCondition .and e first more → Filters g (some e) (some (first, more))

theorem lexes_selection {g : Grammar} {selection : Option Expr}
    {chain : Option (Phrase × List Phrase)} (filters : Filters g selection chain) :
    Ends (selectionText selection) ∧ LexesTo (selectionText selection) (whereTokens chain) := by
  cases filters with
  | absent =>
    have text : selectionText none = [] := rfl
    rw [text]
    exact ⟨by simp [Ends], lexes_nil⟩
  | chain chain =>
    have condition := chain.printed [] [] (by simp [EndsCondition]) lexes_nil
    have word := lexes_blank (c := ' ') (by decide)
      (lexes_spelled true "where" (by decide) condition)
    rw [selection_text, show " WHERE ".toList = ' ' :: (spell true "where" ++ [' ']) by decide]
    exact ⟨by simp [Ends], by simpa [whereTokens] using word⟩

theorem lexes_listed_select {g : Grammar} {b : ListedSelect} (plain : b.Plain)
    {chain : Option (Phrase × List Phrase)} (filters : Filters g b.selection chain) :
    LexesTo b.query.text (keywordToken true "select" ::
      (b.itemsTokens ++ (b.tablesTokens ++ whereTokens chain))) := by
  obtain ⟨ends, condition⟩ := lexes_selection filters
  have tables := lexes_listed (fun t member rest tokens => lexes_listed_table (plain.tables t member))
    plain.some_table ends condition
  have source := lexes_blank (c := ' ') (by decide) (lexes_spelled true "from" (by decide) tables)
  have items := lexes_listed (fun i member rest tokens => lexes_item (plain.items i member))
    plain.some_item (by simp [Ends]) source
  have whole := lexes_spelled true "select" (by decide) items
  rw [listed_text b plain.some_table]
  exact whole

/-! ### The block read back -/

namespace Grammar
open Sql.Parser

section
variable {g h : Grammar} {rest : List Token}

theorem star_read (g : Grammar) (ends : ItemEnds rest) :
    g.item (.symbol "*" :: rest) = some (.parts [.words "*"], rest) := by
  have wild : attempt wildcard (.symbol "*" :: rest) = some (some [], rest) := rfl
  have exclude : exclude rest = some ([], rest) := by
    simp only [Grammar.exclude, bind_run, pure_run, next_after ends excluded "EXCLUDE" (by decide),
      Option.bind_some]
  have except : Grammar.except rest = some ([], rest) := by
    simp only [Grammar.except, bind_run, pure_run, next_keyword ends "EXCEPT" (by decide),
      Option.bind_some, Bool.false_eq_true, if_false]
  have renamed : renamedColumns rest = some ([], rest) := by
    simp only [renamedColumns, bind_run, pure_run, next_keyword ends "RENAME" (by decide),
      Option.bind_some, Bool.false_eq_true, if_false]
  have replaced : g.replacements rest = some ([], rest) := by
    simp only [replacements, bind_run, pure_run, next_keyword ends "REPLACE" (by decide),
      Option.bind_some, Bool.false_eq_true, if_false]
  simp only [item, wildcardOptions, bind_run, pure_run, wild, exclude, except, renamed, replaced,
    Option.bind_some]
  rfl

theorem listed_item_read (inner : g.expr = h.wholeExpr) {i : ListedItem} (plain : i.Plain)
    (ends : ItemEnds rest) : g.item (i.tokens ++ rest) = some (i.item, rest) := by
  cases i with
  | all => exact star_read g ends
  | column names =>
    have path : PlainPath names := plain
    have wild : attempt wildcard (names.tokens ++ rest) = some (none, names.tokens ++ rest) := by
      cases names with
      | nil => exact absurd rfl path.inhabited
      | cons first more => exact name_no_wildcard first more ends
    exact item_read inner (path_legible h path) wild ends

theorem listed_relation_read (g : Grammar) (inner : Parser Source) {t : ListedTable}
    (plain : t.Plain) (ends : TableEnds rest) :
    g.relation inner (t.tokens ++ rest) = some (t.relation, rest) := by
  have free : ∀ first ∈ t.name.head?, isFree first.keyword := by
    intro first head
    have among : ∀ word ∈ ["LATERAL", "TABLE", "UNNEST", "JSON_TABLE"], word ∈ openingWords := by
      simp [openingWords]
    have other : first.keyword ∉ ["LATERAL", "TABLE", "UNNEST", "JSON_TABLE"] := fun member =>
      plain.name.leads first head (among _ member)
    simpa [isFree] using other
  have follows : Next [","] ["AS", "ON", "JOIN", "WHERE"].contains (t.aliasTokens ++ rest) ∧
      tableAlias (t.aliasTokens ++ rest) =
        some (t.short.map fun short => ⟨⟨short, none⟩, []⟩, rest) := by
    obtain ⟨name, short⟩ := t
    cases short with
    | none => exact ⟨next_among ends (by simp) (by simp), no_table_alias ends⟩
    | some short =>
      exact ⟨next_named as_keyword (by simp) _,
        table_alias (alias_behind_as true reservedAfterTable short rest) ends⟩
  rw [ListedTable.tokens, List.append_assoc]
  exact named_relation_read g inner plain.name.inhabited free follows.1 (by decide) follows.2 ends

theorem listed_sources_read (g : Grammar) {b : ListedSelect} (plain : b.Plain)
    (ends : SourcesEnd rest) :
    g.sources (b.tablesTokens ++ rest) =
      some (b.tables.map fun t => ⟨t.relation, []⟩, rest) := by
  have source : ∀ n, ∀ t ∈ b.tables, ∀ rest, SourceEnds rest →
      g.source (n + 1) (t.tokens ++ rest) = some (⟨t.relation, []⟩, rest) := by
    intro n t member rest ends
    have table := listed_relation_read g (g.source n) (plain.tables t member)
      (source_ends_table ends)
    simp only [Grammar.source, bind_run, pure_run, table, many_none (join_none g _ ends),
      Option.bind_some]
  have comma : ∀ rest, SourceEnds (.symbol "," :: rest) := by simp [Next]
  have listed := fun n => items_read (source n) comma (sources_end_source ends)
    (next_symbol ends "," (by decide)) plain.some_table
  have read : ∀ tokens, keyword? "FROM" (keywordToken true "from" :: tokens) =
      some (true, tokens) := keyword_read from_keyword
  rw [ListedSelect.tablesTokens, List.cons_append]
  simp only [sources, after?, commaSeparated, bind_run, pure_run, read, listed, Option.bind_some,
    if_true, Option.getD_some]

theorem listed_item_next {i : ListedItem} (plain : i.Plain) (rest : List Token) :
    Next ["*"] (fun word => !openingWords.contains word) (i.tokens ++ rest) := by
  cases i with
  | all => simp [ListedItem.tokens, Next]
  | column names =>
    have path : PlainPath names := plain
    exact path.next ["*"] rest

end

theorem listed_items_keyword {b : ListedSelect} (plain : b.Plain) {word : String}
    (opening : word ∈ openingWords) (rest : List Token) :
    keyword? word (b.itemsTokens ++ rest) = some (false, b.itemsTokens ++ rest) := by
  have known : (!openingWords.contains word) = false := by simpa using opening
  unfold ListedSelect.itemsTokens
  cases items : b.items with
  | nil => exact absurd items plain.some_item
  | cons first more =>
    have begins := listed_item_next (plain.items first (by simp [items]))
    rw [List.map_cons, intercalate_flat, List.append_assoc]
    exact next_keyword (begins _) word known

theorem listed_items_read {g h : Grammar} (inner : g.expr = h.wholeExpr) {b : ListedSelect}
    (plain : b.Plain) (rest : List Token) :
    commaSeparated g.item (b.itemsTokens ++ (b.tablesTokens ++ rest)) =
      some (b.items.map ListedItem.item, b.tablesTokens ++ rest) := by
  have stops : ItemEnds (b.tablesTokens ++ rest) := next_named from_keyword (by simp) _
  have comma : ∀ rest, ItemEnds (.symbol "," :: rest) := by simp [Next]
  exact items_read (fun i member rest ends => listed_item_read inner (plain.items i member) ends)
    comma stops rfl plain.some_item

theorem where_ends (chain : Option (Phrase × List Phrase)) : SourcesEnd (whereTokens chain) := by
  match chain with
  | none => trivial
  | some _ => exact next_named where_keyword (by simp) _

theorem where_read {g h : Grammar} (inner : g.expr = h.wholeExpr) {selection : Option Expr}
    {chain : Option (Phrase × List Phrase)} (filters : Filters h selection chain) :
    ∃ grouped, after? "WHERE" g.expr (whereTokens chain) = some (grouped, []) ∧
      Option.Rel Regrouped selection grouped := by
  cases filters with
  | absent => exact ⟨none, rfl, .none⟩
  | chain chain =>
    have closes : Closes [] := trivial
    have read := chain.reads (.inl rfl) closes
    rw [List.append_nil] at read
    refine ⟨_, ?_, .some chain.regrouped⟩
    simp only [whereTokens, after?, bind_run, pure_run, keywordToken, nameToken,
      keyword_read where_keyword, inner, read, Option.bind_some, if_true]

theorem listed_select_read {g h : Grammar} (inner : g.expr = h.wholeExpr) {b : ListedSelect}
    (plain : b.Plain) {chain : Option (Phrase × List Phrase)}
    (filters : Filters h b.selection chain) :
    ∃ selection, g.select (b.itemsTokens ++ (b.tablesTokens ++ whereTokens chain)) =
        some ({ b with selection }.block, []) ∧ Option.Rel Regrouped b.selection selection := by
  have opening : ∀ word ∈ ["TOP", "ALL", "DISTINCT"], word ∈ openingWords := by decide +kernel
  have absent := List.forall_mem_cons.mp fun word member =>
    listed_items_keyword plain (opening word member) (b.tablesTokens ++ whereTokens chain)
  obtain ⟨selection, condition, regrouped⟩ := where_read inner filters
  refine ⟨selection, ?_, regrouped⟩
  exact clauses_read (no_distinct g absent.2) (no_top g absent.1) (listed_items_read inner plain _)
    (from_begins true _) (listed_sources_read g plain (where_ends chain)) (where_ends chain)
    condition

end Grammar

/-! ### Renaming -/

def ListedItem.renamed (r : Renaming) : ListedItem → ListedItem
  | all => all
  | column names => column (r.path names)

def ListedTable.renamed (r : Renaming) (t : ListedTable) : ListedTable :=
  { t with name := r.relationName t.name }

def ListedSelect.renamed (r : Renaming) (b : ListedSelect) : ListedSelect where
  items := b.items.map (ListedItem.renamed r)
  tables := b.tables.map (ListedTable.renamed r)
  selection := renameSelection r b.selection

theorem rename_names (r : Renaming) (names : Name) :
    names.expr.rename r = (r.path names).expr := by
  cases names using List.reverseRecOn with
  | nil => rfl
  | append_singleton qualifier column =>
    cases qualifier with
    | nil => rfl
    | cons first rest =>
      rw [qualified_expr (List.cons_ne_nil first rest), Expr.rename, r.path_qualified,
        qualified_expr (r.qualifier_inhabited first rest)]

theorem rename_listed (r : Renaming) (b : ListedSelect) :
    b.query.renameTables r = (b.renamed r).query := by
  have items : ∀ items : List ListedItem, renameItems r (items.map ListedItem.item) =
      (items.map (ListedItem.renamed r)).map ListedItem.item := by
    intro items
    induction items with
    | nil => rfl
    | cons i items ih =>
      rw [List.map_cons, renameItems, ih]
      cases i with
      | all => rfl
      | column names =>
        rw [ListedItem.item, Item.rename, renameParts, renameParts, Part.rename, rename_names]
        rfl
  have sources : ∀ tables : List ListedTable,
      renameSources r (tables.map fun t => ⟨t.relation, []⟩) =
        (tables.map (ListedTable.renamed r)).map fun t => ⟨t.relation, []⟩ := by
    intro tables
    induction tables with
    | nil => rfl
    | cons t tables ih =>
      rw [List.map_cons, renameSources, ih]
      rfl
  have wildcards : ∀ items : List ListedItem,
      (items.map ListedItem.item).map (Item.renameWildcard r) = items.map ListedItem.item := by
    intro items
    rw [List.map_map]
    exact List.map_congr_left fun i _ => by cases i <;> rfl
  have block : b.block.rename r = (b.renamed r).block := by
    rw [ListedSelect.block, Select.rename, items, sources]
    rfl
  rw [Query.renameTables, ListedSelect.query, Query.rename, Body.rename, block]
  simp only [Body.renameWildcards, ListedSelect.block, wildcards]
  rfl

def Renaming.Plain (r : Renaming) : Prop :=
  ∀ key target, r.targets.find? key = some target → PlainPath (Name.ofKey target)

section
variable {r : Renaming}

theorem relation_name_plain (targets : r.Plain) {names : Name} (path : PlainPath names) :
    PlainPath (r.relationName names) := by
  unfold Renaming.relationName
  cases found : r.targets.find? names.key with
  | none => exact path
  | some target => exact targets _ target found

theorem path_plain (targets : r.Plain) {names : Name} (path : PlainPath names) :
    PlainPath (r.path names) := by
  cases names using List.reverseRecOn with
  | nil => exact absurd rfl path.inhabited
  | append_singleton qualifier column =>
    cases qualifier with
    | nil => exact path
    | cons first rest =>
      obtain ⟨front, bare⟩ := (qualified_plain (List.cons_ne_nil first rest) column).mp path
      rw [r.path_qualified]
      refine (qualified_plain (r.qualifier_inhabited first rest) column).mpr ⟨?_, bare⟩
      unfold Renaming.qualifier
      split
      · exact front
      · exact relation_name_plain targets front

theorem renamed_plain (targets : r.Plain) {b : ListedSelect} (plain : b.Plain) :
    (b.renamed r).Plain where
  some_item := by simpa [ListedSelect.renamed] using plain.some_item
  items := by
    refine List.forall_mem_map.mpr fun i member => ?_
    have item := plain.items i member
    cases i with
    | all => trivial
    | column names => exact path_plain targets item
  some_table := by simpa [ListedSelect.renamed] using plain.some_table
  tables := by
    refine List.forall_mem_map.mpr fun t member => ?_
    exact ⟨relation_name_plain targets (plain.tables t member).name, (plain.tables t member).short⟩

end

-- The text of a block over plain names is read back as the block.
theorem listed_read_back {b : ListedSelect} (plain : b.Plain)
    (conjoined : ∀ e ∈ b.selection, Conjoined (Grammar.ofDepth 47) e) :
    ∃ selection, Partition.parseStatement b.query.text = .ok (.query { b with selection }.query) ∧
      Option.Rel Regrouped b.selection selection := by
  obtain ⟨chain, filters⟩ : ∃ chain, Filters (Grammar.ofDepth 47) b.selection chain := by
    cases selected : b.selection with
    | none => exact ⟨none, .absent⟩
    | some e =>
      obtain ⟨first, more, chain⟩ := conjoined e selected
      exact ⟨_, .chain chain⟩
  obtain ⟨selection, read, regrouped⟩ :=
    Grammar.listed_select_read (g := Grammar.ofDepth 48) rfl plain filters
  exact ⟨selection, parse_select read (lexes_listed_select plain filters), regrouped⟩

end TripleTable.Sql
