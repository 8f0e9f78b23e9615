import TripleTable.Plan.SelectPlan
import TripleTable.Proofs.Sql.Spelling
import TripleTable.Proofs.Text.Numbers
set_option autoImplicit false

/-!
A rendered plan as a plain statement: its text falls into the tokens of that statement, whatever
its constants hold. So does the text in which the statement would be printed, up to its constants.
-/
namespace TripleTable.Plan
open Sql

def Column.side (c : Column) : Side := .column (aliasName c.index) [c.role.letter]

def Condition.equality (c : Condition) : Equality :=
  ⟨aliasName c.left.index, [c.left.role.letter], c.right.side⟩

def ConstantFilter.equality (f : ConstantFilter) : Equality :=
  ⟨aliasName f.column.index, [f.column.role.letter], .string f.literal⟩

def Filter.equality : Filter → Equality
  | columns condition => condition.equality
  | constant filter => filter.equality

def NumberedTable.plain (t : NumberedTable) : PlainTable := ⟨t.table, aliasName t.index⟩

def Join.plain (j : Join) : PlainJoin := ⟨j.source.plain, j.on.map Condition.equality⟩

def SelectPlan.plain (p : SelectPlan) : PlainSelect where
  distinct := p.distinct
  items := p.items.map fun item => item.column.side
  table := p.source.plain
  joins := p.joins.map Join.plain
  filters := p.filters.map Filter.equality

/-! ### The text of a plan, as it is rendered or as it is printed -/

def separator (printed : Bool) : Text := ' ' :: (spell printed "and" ++ [' '])

def NumberedTable.written (printed : Bool) (t : NumberedTable) : Text :=
  t.table ++ ' ' :: ((if printed then spell printed "as" ++ [' '] else []) ++ aliasName t.index)

def Join.written (printed : Bool) (j : Join) : Text :=
  ' ' :: (spell printed "join" ++ ' ' :: (j.source.written printed ++
    ' ' :: (spell printed "on" ++ ' ' :: Text.join (separator printed) (j.on.map Condition.text))))

namespace SelectPlan

def sourcesWritten (printed : Bool) (p : SelectPlan) : Text :=
  ' ' :: (spell printed "from" ++ ' ' ::
    (p.source.written printed ++ p.joins.flatMap (Join.written printed)))

def filtersWritten (printed : Bool) (p : SelectPlan) : Text :=
  if p.filters = [] then []
  else ' ' :: (spell printed "where" ++
    ' ' :: Text.join (separator printed) (p.filters.map Filter.text))

def written (printed : Bool) (p : SelectPlan) : Text :=
  spell printed "select" ++ ' ' :: ((if p.distinct then spell printed "distinct" ++ [' '] else []) ++
    (Text.join ", " (p.items.map fun item => item.column.text) ++
      (p.sourcesWritten printed ++ p.filtersWritten printed)))

end SelectPlan

theorem table_written (t : NumberedTable) : t.written false = t.text := rfl

theorem padded_word (padded word : Text) (pads : padded = ' ' :: (word ++ [' '])) (s : Text) :
    padded ++ s = ' ' :: (word ++ ' ' :: s) := by
  rw [pads]
  simp

theorem join_written (j : Join) : j.written false = j.text := by
  have mark : separator false = " and ".toList := by decide
  have on := padded_word " on " (spell false "on") (by decide)
  have join := padded_word " join " (spell false "join") (by decide)
  unfold Join.written Join.text
  rw [table_written, mark, ← on, ← join, List.append_assoc, List.append_assoc]

theorem filters_written (p : SelectPlan) : p.filtersWritten false = p.filtersText := by
  have mark : separator false = " and ".toList := by decide
  have condition := padded_word " where " (spell false "where") (by decide)
  unfold SelectPlan.filtersWritten SelectPlan.filtersText
  rw [mark, ← condition]

theorem sources_written (p : SelectPlan) : p.sourcesWritten false = p.fromText ++ p.joinsText := by
  have source := padded_word " from " (spell false "from") (by decide)
  have joins : Join.written false = Join.text := funext join_written
  unfold SelectPlan.sourcesWritten SelectPlan.fromText SelectPlan.joinsText
  rw [table_written, joins, ← source, List.append_assoc]

theorem rendered_written (p : SelectPlan) : p.written false = p.text := by
  have select : ∀ s, "select ".toList ++ s = spell false "select" ++ ' ' :: s := by
    intro s
    have pads : "select ".toList = spell false "select" ++ [' '] := by decide
    rw [pads]
    simp
  have distinct : ∀ s, "select distinct ".toList ++ s =
      spell false "select" ++ ' ' :: (spell false "distinct" ++ [' '] ++ s) := by
    intro s
    have pads : "select distinct ".toList =
        spell false "select" ++ ' ' :: (spell false "distinct" ++ [' ']) := by decide
    rw [pads]
    simp
  unfold SelectPlan.written SelectPlan.text SelectPlan.selectText
  rw [filters_written, sources_written]
  cases p.distinct with
  | false => simp only [Bool.false_eq_true, if_false, List.append_assoc, List.cons_append,
      List.nil_append, select]
  | true => simp only [if_true, List.append_assoc, List.cons_append, distinct]

/-! ### Its tokens -/

section
variable (printed : Bool) {rest : Text} {tokens : List Token}

theorem lexes_alias (index : Nat) (ends : Ends rest) (lexes : LexesTo rest tokens) :
    LexesTo (aliasName index ++ rest) (nameToken (aliasName index) :: tokens) := by
  have part : ∀ d ∈ Text.ofNat index, isWordPart d := by
    intro d member
    simp [isWordPart, Text.of_nat_digit member]
  exact lexes_word (Text.ofNat index) (by decide) part ends lexes

theorem lexes_column (c : Column) (ends : Ends rest) (lexes : LexesTo rest tokens) :
    LexesTo (c.text ++ rest) (c.side.tokens ++ tokens) := by
  have start : isNameStart c.role.letter := by cases c.role <;> decide
  have column : LexesTo (c.role.letter :: rest) (nameToken [c.role.letter] :: tokens) :=
    lexes_word [] start (by simp) ends lexes
  have dotted := lexes_alias c.index (by simp [Ends]) (lexes_period start column)
  simpa [Column.text, Column.side, Side.tokens] using dotted

theorem lexes_condition (c : Condition) (ends : Ends rest) (lexes : LexesTo rest tokens) :
    LexesTo (c.text ++ rest) (c.equality.tokens ++ tokens) := by
  have equal : LexesTo (' ' :: '=' :: ' ' :: (c.right.text ++ rest))
      (.symbol "=" :: (c.right.side.tokens ++ tokens)) :=
    lexes_blank (by decide) (lexes_equals (lexes_column c.right ends lexes))
  have whole := lexes_column c.left (by simp [Ends]) equal
  have same : c.equality.tokens ++ tokens =
      c.left.side.tokens ++ .symbol "=" :: (c.right.side.tokens ++ tokens) := by
    rw [Equality.tokens, List.append_assoc]
    rfl
  rw [same]
  simpa [Condition.text] using whole

theorem lexes_filter (f : Filter) (ends : Ends rest) (lexes : LexesTo rest tokens) :
    LexesTo (f.text ++ rest) (f.equality.tokens ++ tokens) := by
  cases f with
  | columns condition => exact lexes_condition condition ends lexes
  | constant filter =>
    have equal := lexes_blank (c := ' ') (by decide)
      (lexes_equals (lexes_string filter.literal ends lexes))
    have whole := lexes_column filter.column (by simp [Ends]) equal
    have same : (Filter.constant filter).equality.tokens ++ tokens =
        filter.column.side.tokens ++ .symbol "=" :: .string filter.literal :: tokens := by
      rw [Equality.tokens, List.append_assoc]
      rfl
    rw [same]
    simpa [Filter.text, ConstantFilter.text] using whole

theorem lexes_filters {filters : List Filter} (inhabited : filters ≠ []) (ends : Ends rest)
    (lexes : LexesTo rest tokens) :
    LexesTo (Text.join (separator printed) (filters.map Filter.text) ++ rest)
      (Equality.allTokens printed (filters.map Filter.equality) ++ tokens) := by
  have between : ∀ rest tokens, LexesTo rest tokens → Ends (separator printed ++ rest) ∧
      LexesTo (separator printed ++ rest) ([keywordToken printed "and"] ++ tokens) := by
    intro rest tokens lexes
    have word := lexes_spelled printed "and" (by decide) lexes
    exact ⟨by simp [Ends, separator],
      by simpa [separator] using lexes_blank (c := ' ') (by decide) word⟩
  rw [Equality.allTokens, List.map_map]
  exact lexes_joined (fun f _ _ _ => lexes_filter f) between inhabited ends lexes

theorem lexes_items {items : List ProjectionItem} (inhabited : items ≠ []) (ends : Ends rest)
    (lexes : LexesTo rest tokens) :
    LexesTo (Text.join ", " (items.map fun item => item.column.text) ++ rest)
      ([Token.symbol ","].intercalate ((items.map fun item => item.column.side).map Side.tokens) ++
        tokens) := by
  rw [List.map_map]
  exact lexes_listed (fun item _ _ _ => lexes_column item.column) inhabited ends lexes

theorem lexes_name {name : Text} (sound : SoundName name) (ends : Ends rest)
    (lexes : LexesTo rest tokens) (short : Text) :
    LexesTo (name ++ rest) ((PlainTable.nameTokens ⟨name, short⟩) ++ tokens) := by
  have whole := (lexes_dotted sound.1 (Text.splitOn_ne_nil _ _) ends lexes).1
  rw [Text.join_split] at whole
  rwa [PlainTable.nameTokens, Name.ofKey, List.map_map]

theorem lexes_table {t : NumberedTable} (sound : SoundName t.table) (ends : Ends rest)
    (lexes : LexesTo rest tokens) :
    LexesTo (t.written printed ++ rest) (t.plain.tokens printed ++ tokens) := by
  have short := lexes_alias t.index ends lexes
  have aliased : LexesTo (' ' :: ((if printed then spell printed "as" ++ [' '] else []) ++
      (aliasName t.index ++ rest))) (t.plain.aliasTokens printed ++ tokens) := by
    refine lexes_blank (by decide) ?_
    cases printed with
    | false => exact short
    | true =>
      have word := lexes_spelled true "as" (by decide) short
      simpa [PlainTable.aliasTokens, NumberedTable.plain] using word
  have whole := lexes_name sound (by simp [Ends]) aliased t.plain.short
  simpa [NumberedTable.written, NumberedTable.plain, PlainTable.tokens] using whole

theorem lexes_join {j : Join} (sound : SoundName j.source.table) (placed : j.on ≠ [])
    (ends : Ends rest) (lexes : LexesTo rest tokens) :
    LexesTo (j.written printed ++ rest) (j.plain.tokens printed ++ tokens) := by
  have some_filter : j.on.map Filter.columns ≠ [] := by simpa using placed
  have conditions := lexes_filters printed some_filter ends lexes
  have texts : (j.on.map Filter.columns).map Filter.text = j.on.map Condition.text := by
    rw [List.map_map]
    rfl
  have equalities : (j.on.map Filter.columns).map Filter.equality =
      j.on.map Condition.equality := by
    rw [List.map_map]
    rfl
  rw [texts, equalities] at conditions
  have on := lexes_blank (c := ' ') (by decide)
    (lexes_spelled printed "on" (by decide) conditions)
  have table := lexes_table printed sound (by simp [Ends]) on
  have join := lexes_blank (c := ' ') (by decide)
    (lexes_spelled printed "join" (by decide) table)
  simpa [Join.written, Join.plain, PlainJoin.tokens] using join

theorem lexes_joins {joins : List Join} (sound : ∀ j ∈ joins, SoundName j.source.table)
    (placed : ∀ j ∈ joins, j.on ≠ []) (ends : Ends rest) (lexes : LexesTo rest tokens) :
    LexesTo (joins.flatMap (Join.written printed) ++ rest)
        ((joins.map Join.plain).flatMap (PlainJoin.tokens printed) ++ tokens) ∧
      Ends (joins.flatMap (Join.written printed) ++ rest) := by
  induction joins with
  | nil => exact ⟨lexes, ends⟩
  | cons j joins ih =>
    obtain ⟨sound_here, sound_later⟩ := List.forall_mem_cons.mp sound
    obtain ⟨here, later⟩ := List.forall_mem_cons.mp placed
    obtain ⟨others, stop⟩ := ih sound_later later
    have whole := lexes_join printed sound_here here stop others
    simp only [List.map_cons, List.flatMap_cons, List.append_assoc]
    exact ⟨whole, by simp [Ends, Join.written]⟩

end

namespace SelectPlan

-- What a plan holds whose statement can be read back. A table that must be quoted or that begins
-- another relation is written bare, and the text is then another statement.
structure Readable (p : SelectPlan) : Prop where
  items : p.items ≠ []
  first : SoundName p.source.table
  sound : ∀ j ∈ p.joins, SoundName j.source.table
  placed : ∀ j ∈ p.joins, j.on ≠ []

variable {printed : Bool} {p : SelectPlan}

theorem lexes_filters_text (printed : Bool) (p : SelectPlan) :
    LexesTo (p.filtersWritten printed) (p.plain.filtersTokens printed) ∧
      Ends (p.filtersWritten printed) := by
  by_cases absent : p.filters = []
  · have tokens : p.plain.filtersTokens printed = [] := by
      simp [PlainSelect.filtersTokens, plain, absent]
    rw [filtersWritten, if_pos absent, tokens]
    exact ⟨lexes_nil, by simp [Ends]⟩
  · have conditions := lexes_filters printed absent (by simp [Ends]) lexes_nil
    have word := lexes_blank (c := ' ') (by decide)
      (lexes_spelled printed "where" (by decide) conditions)
    have some_filter : p.plain.filters ≠ [] := by simpa [plain] using absent
    rw [filtersWritten, if_neg absent, PlainSelect.filtersTokens, if_neg some_filter]
    exact ⟨by simpa [plain] using word, by simp [Ends]⟩

theorem lexes_sources (printed : Bool) (readable : p.Readable) :
    LexesTo (p.sourcesWritten printed ++ p.filtersWritten printed)
      (p.plain.sourcesTokens printed ++ p.plain.filtersTokens printed) := by
  obtain ⟨filters, stop⟩ := lexes_filters_text printed p
  obtain ⟨joins, stop⟩ := lexes_joins printed readable.sound readable.placed stop filters
  have table := lexes_table printed readable.first stop joins
  have word := lexes_blank (c := ' ') (by decide)
    (lexes_spelled printed "from" (by decide) table)
  simpa [sourcesWritten, PlainSelect.sourcesTokens, plain] using word

theorem lexes_written (printed : Bool) (readable : p.Readable) :
    LexesTo (p.written printed) (p.plain.tokens printed) := by
  have items := lexes_items readable.items (by simp [Ends, sourcesWritten])
    (lexes_sources printed readable)
  have marked : LexesTo ((if p.distinct then spell printed "distinct" ++ [' '] else []) ++
      (Text.join ", " (p.items.map fun item => item.column.text) ++
        (p.sourcesWritten printed ++ p.filtersWritten printed)))
      (p.plain.distinctTokens printed ++ (p.plain.itemsTokens ++
        (p.plain.sourcesTokens printed ++ p.plain.filtersTokens printed))) := by
    cases distinct : p.distinct with
    | false => simpa [PlainSelect.distinctTokens, PlainSelect.itemsTokens, plain, distinct] using items
    | true =>
      have word := lexes_spelled printed "distinct" (by decide) items
      simpa [PlainSelect.distinctTokens, PlainSelect.itemsTokens, plain, distinct] using word
  exact lexes_spelled printed "select" (by decide) marked

end SelectPlan
end TripleTable.Plan
