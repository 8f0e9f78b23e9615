import TripleTable.Proofs.Partition.Emission
import TripleTable.Proofs.Shape.Truth
import TripleTable.Proofs.Sql.Chains
set_option autoImplicit false

/-!
Constraints with several numbers are recognised by the walk of a condition as what a rewriting
added, whatever tree their equalities are read back as, and nothing else is recognised as one.
-/
namespace TripleTable.Partition
open Sql
open Shape (ColumnRef Comparison comparisons disjunctionColumn? isDisjunction literal integerBound
  columnRef? Listing)

-- The OR trees over a list of terms, in their order and however they group them.
inductive Disjunction : List Expr → Expr → Prop
  | term (e : Expr) : Disjunction [e] e
  | either {front back : List Expr} {left right : Expr} : Disjunction front left →
      Disjunction back right → Disjunction (front ++ back) (.binary left .or right)

-- An equality as it is read back: the sign is apart from the digits, and a lone name is no path.
def reread (column : Text) (p : Int) : Expr :=
  .binary (Name.expr (Name.ofKey column)) (.compare .eq) (signed p)

-- An equality of a constraint. The digits of the lowest number are too large for an integer once
-- the sign is apart from them.
inductive EqualityOf (column : Text) (p : Int) : Expr → Prop
  | emitted : EqualityOf column p (Constraint.equality column p)
  | read : -integerBound < p → EqualityOf column p (reread column p)

/-! ### Trees over the equalities of a constraint -/

theorem disjunction_inhabited {terms : List Expr} {t : Expr} (tree : Disjunction terms t) :
    terms ≠ [] := by
  cases tree with
  | term => exact List.cons_ne_nil _ _
  | either left right =>
    exact fun empty => disjunction_inhabited left (List.append_eq_nil_iff.mp empty).1

theorem disjunction_lone {term t : Expr} (tree : Disjunction [term] t) : t = term := by
  generalize listed : [term] = terms at tree
  cases tree with
  | term => exact (List.singleton_inj.mp listed).symm
  | either left right =>
    have front := List.length_pos_iff.mpr (disjunction_inhabited left)
    have back := List.length_pos_iff.mpr (disjunction_inhabited right)
    have length := congrArg List.length listed
    rw [List.length_append, List.length_singleton] at length
    omega

theorem disjunction_several {terms : List Expr} {t : Expr} (tree : Disjunction terms t)
    (several : 2 ≤ terms.length) : isDisjunction t := by
  cases tree with
  | term => simp at several
  | either left right => rfl

theorem disjunction_column {terms : List Expr} {t : Expr} (tree : Disjunction terms t)
    {ref : ColumnRef} (all : ∀ term ∈ terms, disjunctionColumn? term = some ref) :
    disjunctionColumn? t = some ref := by
  induction tree with
  | term e => exact all e List.mem_cons_self
  | either _ _ left right =>
    obtain ⟨front, back⟩ := List.forall_mem_append.mp all
    exact Shape.disjunction_column_or.mpr ⟨left front, right back⟩

theorem disjunction_made (terms : List Expr) (inhabited : terms ≠ []) :
    ∃ t, disjunction? terms = some t ∧ Disjunction terms t :=
  disjunction_built (motive := Disjunction) .term
    (fun _ _ _ _ _ _ left right => .either left right) terms inhabited

-- The terms joined one after the other, each to all before it.
def chained (first : Expr) (more : List Expr) : Expr :=
  more.foldl (fun tree term => .binary tree .or term) first

theorem chained_disjunction {front : List Expr} {left : Expr} (tree : Disjunction front left)
    (more : List Expr) : Disjunction (front ++ more) (chained left more) := by
  induction more generalizing front left with
  | nil => simpa [chained] using tree
  | cons term more ih =>
    have longer := ih (.either tree (.term term))
    simpa [chained] using longer

theorem combined_disjunction {front : List Expr} {left : Expr} (tree : Disjunction front left)
    (more : List Phrase) :
    Disjunction (front ++ more.map Phrase.expr) (Phrase.combined .or left more) := by
  have chain := chained_disjunction tree (more.map Phrase.expr)
  rwa [chained, List.foldl_map] at chain

/-! ### Its column and its numbers -/

theorem integer_literal {p : Int} (low : -integerBound ≤ p) (high : p < integerBound) :
    literal (.number (Text.ofInt p) false) = .ok (.integer p) := by
  simp only [literal, Shape.number?, Text.to_int_of_int, if_pos (And.intro low high)]

theorem named_text {names : Name} {ref : ColumnRef} (named : Shape.columnNamed? names = some ref) :
    ref.text = names.key := by
  induction names generalizing ref with
  | nil => cases named
  | cons first rest ih =>
    cases rest with
    | nil =>
      obtain rfl := Option.some.inj named
      exact (name_key first.value).symm
    | cons second rest =>
      obtain ⟨⟨qualifier, column⟩, found, rfl⟩ := Option.map_eq_some_iff.mp named
      rw [Shape.key_cons, ← ih found]
      cases qualifier with
      | none => rfl
      | some qualifier => simp [ColumnRef.text]

theorem key_reference (column : Text) :
    ∃ ref, columnRef? (.path (Name.ofKey column)) = some ref ∧ ref.text = column := by
  obtain ⟨ref, found⟩ := key_column column
  refine ⟨ref, found, ?_⟩
  rw [Shape.column_ref_named] at found
  rw [named_text found, key_of_key]

theorem name_reference (names : Name) :
    columnRef? (Name.expr names) = columnRef? (.path names) := by
  match names with
  | [] => rfl
  | [name] => rfl
  | _ :: _ :: _ => rfl

theorem equality_sides {column : Text} {p : Int} {e : Expr} (term : EqualityOf column p e)
    (low : -integerBound ≤ p) (high : p < integerBound) :
    ∃ left right, e = .binary left (.compare .eq) right ∧
      columnRef? left = columnRef? (.path (Name.ofKey column)) ∧
      literal right = .ok (.integer p) := by
  cases term with
  | emitted => exact ⟨_, _, rfl, rfl, integer_literal low high⟩
  | read above => exact ⟨_, _, rfl, name_reference _, signed_integer above high⟩

section
variable {column : Text} {ref : ColumnRef} {partitions : List Int}

theorem equality_column {p : Int} {e : Expr} (term : EqualityOf column p e)
    (found : columnRef? (.path (Name.ofKey column)) = some ref)
    (low : -integerBound ≤ p) (high : p < integerBound) : disjunctionColumn? e = some ref := by
  obtain ⟨left, right, rfl, named, number⟩ := equality_sides term low high
  simp only [disjunctionColumn?, number, Shape.isInteger, if_true, named, found]

theorem equality_comparison {p : Int} {e : Expr} (term : EqualityOf column p e)
    (found : columnRef? (.path (Name.ofKey column)) = some ref)
    (low : -integerBound ≤ p) (high : p < integerBound) :
    comparisons (.nested e) = .ok [⟨ref, .eq, .integer p⟩] := by
  obtain ⟨left, right, rfl, named, number⟩ := equality_sides term low high
  have normal : Shape.normalize left .eq right = .ok ⟨ref, .eq, .integer p⟩ := by
    simp only [Shape.normalize, named, found, number]
    rfl
  simp only [comparisons, isDisjunction, Bool.false_and, Bool.false_eq_true, if_false]
  exact Shape.comparisons_compare.mpr ⟨_, normal, rfl⟩

theorem equalities_column {terms : List Expr}
    (each : List.Forall₂ (EqualityOf column) partitions terms)
    (found : columnRef? (.path (Name.ofKey column)) = some ref)
    (range : ∀ p ∈ partitions, -integerBound ≤ p ∧ p < integerBound) :
    ∀ term ∈ terms, disjunctionColumn? term = some ref := by
  induction each with
  | nil => simp
  | cons term _ ih =>
    obtain ⟨⟨low, high⟩, later⟩ := List.forall_mem_cons.mp range
    exact List.forall_mem_cons.mpr ⟨equality_column term found low high, ih later⟩

-- What a constraint adds to the comparisons of a condition.
def admitted (ref : ColumnRef) : List Int → List Comparison
  | [p] => [⟨ref, .eq, .integer p⟩]
  | _ => []

theorem disjunction_walked {terms : List Expr} {t : Expr} (inhabited : partitions ≠ [])
    (each : List.Forall₂ (EqualityOf column) partitions terms) (tree : Disjunction terms t)
    (found : columnRef? (.path (Name.ofKey column)) = some ref)
    (range : ∀ p ∈ partitions, -integerBound ≤ p ∧ p < integerBound) :
    comparisons (.nested t) = .ok (admitted ref partitions) := by
  match partitions, each with
  | [], _ => exact absurd rfl inhabited
  | [p], .cons term .nil =>
    obtain ⟨low, high⟩ := range p List.mem_cons_self
    rw [disjunction_lone tree]
    exact equality_comparison term found low high
  | p :: second :: more, each =>
    have several : 2 ≤ terms.length := by
      rw [← each.length_eq, List.length_cons, List.length_cons]
      omega
    have same := disjunction_column tree (equalities_column each found range)
    simp only [comparisons, disjunction_several tree several, same, Option.isSome_some,
      Bool.and_self, if_true, admitted]

end

/-! ### The printed constraint, read back -/

def signedTokens : Int → List Token
  | .ofNat n => [.number (Text.ofNat n) false]
  | .negSucc n => [.symbol "-", .number (Text.ofNat (n + 1)) false]

def signedPhrase (p : Int) : Phrase := ⟨signedTokens p, signed p⟩

def equation (column : Text) (p : Int) : Phrase :=
  (Name.ofKey column).phrase.compared .eq (signedPhrase p)

def orWord : Ident := ⟨"OR", none⟩

def chainTokens (column : Text) (partitions : List Int) : List Token :=
  [Token.word orWord].intercalate (partitions.map fun p => (equation column p).tokens)

def constraintTokens (c : Constraint) : List Token :=
  .symbol "(" :: (chainTokens c.column c.partitions ++ [.symbol ")"])

-- A column that is read wherever it is written bare: words with periods between them, the first of
-- which begins no other expression.
structure PlainColumn (column : Text) : Prop where
  bare : ∀ part ∈ Text.splitOn (· == '.') column, isBareWord part
  idle : ∀ first ∈ (Text.splitOn (· == '.') column).head?, isIdle (inCapitals first)

theorem signed_legible (g : Grammar) (p : Int) :
    Grammar.Legible g (signedTokens p) (signed p) := by
  cases p with
  | ofNat n => exact Grammar.number_legible g _ _
  | negSucc n => exact Grammar.negative_legible g _ _

section
variable {column : Text} {rest : Text} {tokens : List Token}

theorem plain_column_name (plain : PlainColumn column) :
    ∃ first more, Name.ofKey column = first :: more ∧ isIdle first.keyword := by
  cases named : Name.ofKey column with
  | nil => exact absurd named (of_key_inhabited column)
  | cons first more =>
    obtain ⟨part, parts, split, rfl, -⟩ := List.map_eq_cons_iff.mp named
    exact ⟨_, more, rfl, plain.idle part (by simp [split])⟩

theorem column_legible (g : Grammar) (plain : PlainColumn column) :
    Grammar.Legible g (Name.tokens (Name.ofKey column)) (Name.expr (Name.ofKey column)) := by
  obtain ⟨first, more, named, idle⟩ := plain_column_name plain
  rw [named]
  exact Grammar.name_legible g idle more

theorem equation_joinable (g : Grammar) (plain : PlainColumn column) (p : Int) :
    Grammar.Joinable g (equation column p) :=
  Grammar.compared_joinable (column_legible g plain) .eq (signed_legible g p)

theorem lexes_signed (p : Int) (ends : EndsNumber rest) (lexes : LexesTo rest tokens) :
    LexesTo (Text.ofInt p ++ rest) (signedTokens p ++ tokens) := by
  have digits : ∀ n, ∀ c ∈ Text.ofNat n, c.isDigit := fun n _ => Text.of_nat_digit
  have number : ∀ n, LexesTo (Text.ofNat n ++ rest) (.number (Text.ofNat n) false :: tokens) :=
    fun n => lexes_digits (Text.of_nat_inhabited n) (digits n) ends lexes
  cases p with
  | ofNat n => exact number n
  | negSucc n =>
    have behind := number (n + 1)
    have all := digits (n + 1)
    rw [Text.ofInt]
    cases written : Text.ofNat (n + 1) with
    | nil => exact absurd written (Text.of_nat_inhabited _)
    | cons c more =>
      rw [written] at behind all
      have minus := lexes_minus (all c List.mem_cons_self) behind
      simpa [signedTokens, written] using minus

theorem equality_text (column : Text) (p : Int) :
    (Constraint.equality column p).text = column ++ ' ' :: '=' :: ' ' :: Text.ofInt p := by
  simp [Constraint.equality, Expr.text, BinaryOp.text, ComparisonOp.text, ComparisonOp.symbol,
    name_of_key_text]

theorem lexes_equality (plain : PlainColumn column) (p : Int) (ends : EndsNumber rest)
    (lexes : LexesTo rest tokens) :
    LexesTo ((Constraint.equality column p).text ++ rest)
      ((equation column p).tokens ++ tokens) := by
  have equals := lexes_blank (c := ' ') (by decide) (lexes_equals (lexes_signed p ends lexes))
  have bare : ∀ name ∈ Name.ofKey column, name.quote = none ∧ isBareWord name.value :=
    List.forall_mem_map.mpr fun part member => ⟨rfl, plain.bare part member⟩
  have whole := lexes_names (of_key_inhabited column) bare (by simp [Ends]) equals
  have tokens : (equation column p).tokens =
      Name.tokens (Name.ofKey column) ++ .symbol "=" :: signedTokens p := rfl
  rw [name_of_key_text] at whole
  simpa [equality_text, tokens] using whole

theorem lexes_chain (plain : PlainColumn column) {partitions : List Int}
    (inhabited : partitions ≠ []) (ends : EndsNumber rest) (lexes : LexesTo rest tokens) :
    LexesTo (Text.join " OR ".toList
        (partitions.map fun p => (Constraint.equality column p).text) ++ rest)
      (chainTokens column partitions ++ tokens) := by
  have between : ∀ rest tokens, LexesTo rest tokens → EndsNumber (" OR ".toList ++ rest) ∧
      LexesTo (" OR ".toList ++ rest) ([Token.word orWord] ++ tokens) := by
    intro rest tokens lexes
    have word : LexesTo ("OR".toList ++ ' ' :: rest) (.word orWord :: tokens) :=
      lexes_bare (by decide) (by simp [Ends]) (lexes_blank (by decide) lexes)
    exact ⟨by simp [EndsNumber], lexes_blank (c := ' ') (by decide) word⟩
  exact lexes_joined (fun p _ _ _ => lexes_equality plain p) between inhabited ends lexes

theorem constraint_text (column : Text) {partitions : List Int} (inhabited : partitions ≠ []) :
    (Constraint.expr ⟨column, partitions⟩).text = '(' :: (Text.join " OR ".toList
      (partitions.map fun p => (Constraint.equality column p).text) ++ [')']) := by
  obtain ⟨e, made, text⟩ := disjunction_text (partitions.map (Constraint.equality column))
    (by simpa using inhabited)
  rw [Constraint.expr, made, Option.getD_some, Expr.text, text, List.map_map]
  rfl

theorem lexes_constraint (plain : PlainColumn column) {partitions : List Int}
    (inhabited : partitions ≠ []) :
    tokens? (Constraint.expr ⟨column, partitions⟩).text =
      some (constraintTokens ⟨column, partitions⟩) := by
  have close := lexes_parenthesis (.inr rfl) lexes_nil
  have chain := lexes_chain plain inhabited (by simp [EndsNumber]) close
  rw [constraint_text column inhabited]
  exact lexes_all (lexes_parenthesis (.inl rfl) chain)

theorem chain_tokens_cons (column : Text) (p : Int) (more : List Int) :
    chainTokens column (p :: more) =
      (equation column p).tokens ++ Phrase.chained orWord (more.map (equation column)) := by
  rw [chainTokens, List.map_cons, intercalate_flat, List.flatMap_map, Phrase.chained,
    List.flatMap_map]
  rfl

theorem constraint_legible (depth : Nat) (plain : PlainColumn column) {partitions : List Int}
    (inhabited : partitions ≠ []) :
    ∃ t, Disjunction (partitions.map (reread column)) t ∧
      Grammar.Legible (Grammar.ofDepth (depth + 1)) (constraintTokens ⟨column, partitions⟩)
        (.nested t) := by
  cases partitions with
  | nil => exact absurd rfl inhabited
  | cons p more =>
    have tree := combined_disjunction (.term (reread column p)) (more.map (equation column))
    rw [List.map_map] at tree
    refine ⟨_, tree, ?_⟩
    have joinable : ∀ e ∈ equation column p :: more.map (equation column),
        Grammar.Joinable (Grammar.ofDepth depth) e := by
      rw [← List.map_cons]
      exact List.forall_mem_map.mpr fun p _ => equation_joinable _ plain p
    have begins : ∀ rest, Next [] isIdle (chainTokens column (p :: more) ++ rest) := by
      intro rest
      obtain ⟨first, names, named, idle⟩ := plain_column_name plain
      rw [chain_tokens_cons, List.append_assoc, equation, Phrase.compared, List.append_assoc,
        Name.phrase, named]
      exact Grammar.name_next idle names _
    have reads : ∀ rest, (Grammar.ofDepth depth).wholeExpr
        (chainTokens column (p :: more) ++ .symbol ")" :: rest) =
          some (Phrase.combined .or (reread column p) (more.map (equation column)),
            .symbol ")" :: rest) := by
      intro rest
      have keyword : orWord.keyword = "OR" := by decide
      have closes : Closes (.symbol ")" :: rest) := by simp [Next]
      rw [chain_tokens_cons, List.append_assoc]
      exact Grammar.whole_chain (Grammar.or_connects keyword) joinable closes
    exact Grammar.nested_legible rfl begins reads

end

/-! ### All constraints -/

theorem constraint_disjunction (column : Text) {partitions : List Int}
    (inhabited : partitions ≠ []) :
    ∃ t, Constraint.expr ⟨column, partitions⟩ = .nested t ∧
      Disjunction (partitions.map (Constraint.equality column)) t := by
  obtain ⟨t, made, tree⟩ := disjunction_made (partitions.map (Constraint.equality column))
    (by simpa using inhabited)
  exact ⟨t, by rw [Constraint.expr, made, Option.getD_some], tree⟩

-- A constraint is recognised as it is emitted, as it is read back from its text, and in any other
-- tree of its equalities: it adds the one comparison with a lone number, or none. What else is
-- passed over compares one column with integers too.
theorem constraints_recognised {column : Text} {partitions : List Int} (inhabited : partitions ≠ [])
    (range : ∀ p ∈ partitions, -integerBound ≤ p ∧ p < integerBound) :
    (∃ t, Constraint.expr ⟨column, partitions⟩ = .nested t ∧
      Disjunction (partitions.map (Constraint.equality column)) t) ∧
    (PlainColumn column → ∃ tokens,
      tokens? (Constraint.expr ⟨column, partitions⟩).text = some tokens ∧
      ∀ depth, ∃ t, Disjunction (partitions.map (reread column)) t ∧
        Grammar.Legible (Grammar.ofDepth (depth + 1)) tokens (.nested t)) ∧
    (∃ ref, columnRef? (.path (Name.ofKey column)) = some ref ∧ ref.text = column ∧
      ∀ terms t, List.Forall₂ (EqualityOf column) partitions terms → Disjunction terms t →
        comparisons (.nested t) = .ok (admitted ref partitions)) ∧
    ∀ left right list, comparisons (.nested (.binary left .or right)) = .ok list →
      list = [] ∧ ∃ ref, Listing ref (.binary left .or right) := by
  refine ⟨constraint_disjunction column inhabited, fun plain => ?_, ?_, ?_⟩
  · exact ⟨_, lexes_constraint plain inhabited, fun depth =>
      constraint_legible depth plain inhabited⟩
  · obtain ⟨ref, found, text⟩ := key_reference column
    exact ⟨ref, found, text, fun terms t each tree =>
      disjunction_walked inhabited each tree found range⟩
  · intro left right list read
    rcases Shape.comparisons_nested read with ⟨-, listing, empty⟩ | unread
    · exact ⟨empty, listing⟩
    · cases unread

def severalNumbers : Constraint := ⟨"tbl2.part", [0, -3, 7]⟩

theorem several_numbers_recognised :
    severalNumbers.expr.text = "(tbl2.part = 0 OR tbl2.part = -3 OR tbl2.part = 7)".toList ∧
      comparisons severalNumbers.expr = .ok [] ∧
      ∃ tokens t, tokens? severalNumbers.expr.text = some tokens ∧
        Grammar.Legible (Grammar.ofDepth 1) tokens (.nested t) ∧
        comparisons (.nested t) = .ok [] := by
  have inhabited : severalNumbers.partitions ≠ [] := by decide
  have plain : PlainColumn severalNumbers.column := ⟨by decide, by decide +kernel⟩
  obtain ⟨⟨built, made, tree⟩, printed, ⟨ref, -, -, walked⟩, -⟩ :=
    @constraints_recognised severalNumbers.column _ inhabited (by decide)
  obtain ⟨tokens, lexed, reads⟩ := printed plain
  obtain ⟨t, other, legible⟩ := reads 0
  have emitted : List.Forall₂ (EqualityOf severalNumbers.column) severalNumbers.partitions
      (severalNumbers.partitions.map (Constraint.equality severalNumbers.column)) :=
    .cons .emitted (.cons .emitted (.cons .emitted .nil))
  have read : List.Forall₂ (EqualityOf severalNumbers.column) severalNumbers.partitions
      (severalNumbers.partitions.map (reread severalNumbers.column)) :=
    .cons (.read (by decide)) (.cons (.read (by decide)) (.cons (.read (by decide)) .nil))
  have before := walked _ _ emitted tree
  rw [← made] at before
  refine ⟨?_, before, tokens, t, lexed, legible, walked _ _ read other⟩
  exact (constraint_text severalNumbers.column inhabited).trans (by decide)

-- The constraint that admits the lowest number and another is refused once it is read back: behind
-- its sign the number is too large, so the disjunction compares a column with a binary64 number.
def lowestNumber : Constraint := ⟨"t.p", [-integerBound, 0]⟩

set_option maxRecDepth 10000 in
theorem lowest_number_refused :
    lowestNumber.expr.text = "(t.p = -9223372036854775808 OR t.p = 0)".toList ∧
      walk ("select * from t where " ++ lowestNumber.expr.text) = .error
        (.malformed (.unsupportedExpression "t.p = -9223372036854775808 OR t.p = 0")) := by
  have text : lowestNumber.expr.text = "(t.p = -9223372036854775808 OR t.p = 0)".toList :=
    (constraint_text lowestNumber.column (by decide)).trans (by decide)
  have lexed : tokens? ("select * from t where " ++
      "(t.p = -9223372036854775808 OR t.p = 0)".toList) =
        some ([nameToken "select", .symbol "*", nameToken "from", nameToken "t",
          nameToken "where"] ++ constraintTokens lowestNumber) := by
    decide +kernel
  refine ⟨text, ?_⟩
  rw [text, walk, parseStatement, parseStatements, lexed]
  rfl

end TripleTable.Partition
