import TripleTable.Proofs.Sql.Reading
import TripleTable.Proofs.Text.Names
import TripleTable.Sql.Grammar.Expression
set_option autoImplicit false

/-!
How the grammar reads names, and conditions that one connective joins: from the left, whatever the
connective is.
-/
namespace TripleTable.Sql
open Grammar (typeNames operatorWords comparisonRank)

abbrev Trails : List Token → Prop :=
  Next [",", ")", "=", "<", "<=", ">", ">=", "<>"] ["FROM", "AND", "OR", "JOIN", "WHERE"].contains

abbrev Closes : List Token → Prop := Next [",", ")"] ["FROM", "JOIN", "WHERE"].contains

def specialWords : List String := [
  "TRUE", "FALSE", "NULL", "CURRENT_CATALOG", "CURRENT_USER", "SESSION_USER", "USER",
  "CURRENT_TIMESTAMP", "CURRENT_TIME", "CURRENT_DATE", "LOCALTIME", "LOCALTIMESTAMP", "CASE",
  "CONVERT", "CAST", "TRY_CAST", "SAFE_CAST", "EXISTS", "EXTRACT", "CEIL", "FLOOR", "POSITION",
  "SUBSTRING", "OVERLAY", "TRIM", "INTERVAL", "LISTAGG", "ARRAY_AGG", "ARRAY", "NOT", "MATCH",
  "STRUCT"]

def queryWords : List String := ["SELECT", "WITH", "ANY", "ALL"]

-- The words that the grammar looks for where an operand begins.
def operandWords : List String := typeNames.map Prod.fst ++ (specialWords ++ queryWords)

-- Whether a word begins an operand only as a name.
def isIdle (word : String) : Bool := !operandWords.contains word

theorem operand_word_busy {word : String} (member : word ∈ operandWords) :
    isIdle word = false := by
  simp only [isIdle, List.contains_iff_mem.mpr member, Bool.not_true]

theorem special_word_busy {word : String} (member : word ∈ specialWords) :
    isIdle word = false :=
  operand_word_busy (List.mem_append_right _ (List.mem_append_left _ member))

theorem query_word_busy {word : String} (member : word ∈ queryWords) : isIdle word = false :=
  operand_word_busy (List.mem_append_right _ (List.mem_append_right _ member))

def Name.tokens (names : Name) : List Token :=
  [Token.symbol "."].intercalate (names.map fun name => [.word name])

-- A lone name is not read as a path.
def Name.expr : Name → Expr
  | [name] => .column name
  | names => .path names

theorem name_tokens_cons (name : Ident) (more : Name) :
    Name.tokens (name :: more) =
      .word name :: more.flatMap fun next => [.symbol ".", .word next] := by
  rw [Name.tokens, List.map_cons, intercalate_flat, List.flatMap_map]
  rfl

-- An operand or a condition, as tokens and as what they are read as.
structure Phrase where
  tokens : List Token
  expr : Expr

def Name.phrase (names : Name) : Phrase := ⟨names.tokens, names.expr⟩

namespace Phrase

def compared (left : Phrase) (op : ComparisonOp) (right : Phrase) : Phrase where
  tokens := left.tokens ++ .symbol op.symbol :: right.tokens
  expr := .binary left.expr (.compare op) right.expr

def chained (word : Ident) (more : List Phrase) : List Token :=
  more.flatMap fun p => .word word :: p.tokens

def combined (op : BinaryOp) (first : Expr) (more : List Phrase) : Expr :=
  more.foldl (fun condition p => .binary condition op p.expr) first

theorem chained_cons (word : Ident) (p : Phrase) (more : List Phrase) (rest : List Token) :
    chained word (p :: more) ++ rest =
      .word word :: (p.tokens ++ (chained word more ++ rest)) := by
  simp only [chained, List.flatMap_cons, List.cons_append, List.append_assoc]

theorem chained_length (word : Ident) (more : List Phrase) :
    more.length ≤ (chained word more).length := by
  induction more with
  | nil => exact Nat.le_refl _
  | cons p more ih =>
    have length := congrArg List.length (chained_cons word p more [])
    simp only [List.append_nil, List.length_cons, List.length_append] at length ⊢
    omega

end Phrase

namespace Grammar
open Sql.Parser

theorem closes_trails {tokens : List Token} (closes : Closes tokens) : Trails tokens :=
  next_among closes (by simp) (by simp)

/-! ### Operands -/

section
variable {name : Ident} {more : Name} {rest : List Token}

theorem name_next (idle : isIdle name.keyword) (more : Name) (rest : List Token) :
    Next [] isIdle (Name.tokens (name :: more) ++ rest) := by
  rw [name_tokens_cons]
  exact idle

theorem dotted_names {names : Name} (inhabited : names ≠ []) (rest : List Token)
    (ends : symbol? "." rest = some (false, rest)) :
    dotted (names.tokens ++ rest) = some (names, rest) := by
  have reads : ∀ name ∈ names, ∀ rest, True →
      ident ([Token.word name] ++ rest) = some (id name, rest) := fun _ _ _ _ => rfl
  have read := items_read reads (fun _ => trivial) trivial ends inhabited
  rwa [List.map_id] at read

theorem plain_type_name (inner : Parser TypeText) (idle : isIdle name.keyword)
    (trails : Trails rest) :
    plainType inner (Name.tokens (name :: more) ++ rest) =
      some ({ text := Name.text (name :: more), kind := .custom }, rest) := by
  have next := name_next idle more rest
  have array := next_keyword next "ARRAY" (special_word_busy (by simp [specialWords]))
  have interval := next_keyword next "INTERVAL" (special_word_busy (by simp [specialWords]))
  have names : oneOf? (typeNames.map Prod.fst) (Name.tokens (name :: more) ++ rest) =
      some (none, Name.tokens (name :: more) ++ rest) :=
    next_one_of next fun _ member => operand_word_busy (List.mem_append_left _ member)
  have parenthesis := next_symbol trails "(" (by decide)
  have word : seesWord (Name.tokens (name :: more) ++ rest) =
      some (true, Name.tokens (name :: more) ++ rest) := by
    rw [name_tokens_cons]
    rfl
  have dotted := dotted_names (List.cons_ne_nil name more) rest
    (next_symbol trails "." (by decide))
  have custom : customType (Name.tokens (name :: more) ++ rest) =
      some ({ text := Name.text (name :: more), kind := .custom }, rest) := by
    simp only [customType, bind_run, pure_run, dotted, Option.bind_some, parenthesis,
      Bool.false_eq_true, if_false]
  simp only [plainType, bind_run, array, interval, names, word, custom, Option.bind_some, if_true,
    Bool.false_eq_true, if_false]

-- The grammar tries a literal with its type in front before it tries a name. A column reads as
-- a type of an unknown name, and what follows begins no literal.
theorem typed_literal_name (lower : Lower) (idle : isIdle name.keyword) (trails : Trails rest) :
    typedLiteral lower (Name.tokens (name :: more) ++ rest) = none := by
  have bracket : brackets rest = some (none, rest) := by
    simp only [brackets, bind_run, pure_run, next_symbol trails "[" (by decide),
      Option.bind_some, Bool.false_eq_true, if_false]
  have type : completeType (Name.tokens (name :: more) ++ rest) =
      some ({ text := Name.text (name :: more), kind := .custom }, rest) := by
    simp only [completeType, openType, typeUpTo, bind_run, pure_run, Option.bind_some,
      plain_type_name _ idle trails, many_none bracket, Bool.false_eq_true, if_false]
  simp only [typedLiteral, bind_run, type, Option.bind_some, failure_run]

theorem typed_literal_token (lower : Lower) {token : Token} (other : token.isWord = false)
    (rest : List Token) : typedLiteral lower (token :: rest) = none := by
  have absent : ∀ word, keyword? word (token :: rest) = some (false, token :: rest) := by
    intro word
    cases token with
    | word name => cases other
    | _ => rfl
  have no_word : seesWord (token :: rest) = some (false, token :: rest) := by
    simp only [seesWord, sees, List.head?_cons, Option.any_some, other]
  have plain : ∀ inner, plainType inner (token :: rest) = none := by
    intro inner
    simp only [plainType, bind_run, absent, one_of_none fun word _ => absent word, no_word,
      failure_run, Option.bind_some, Option.bind_none, Bool.false_eq_true, if_false]
  simp only [typedLiteral, completeType, openType, typeUpTo, bind_run, plain, Option.bind_none]

theorem special_forms_idle (g : Grammar) (lower : Lower) {word : String} (idle : isIdle word) :
    (g.specialForms lower).lookup word = none := by
  have words : (g.specialForms lower).map Prod.fst = specialWords := rfl
  rw [List.lookup_eq_none_iff]
  intro form member
  have other := special_word_busy (words ▸ List.mem_map_of_mem member)
  rw [bne_iff_ne]
  rintro rfl
  rw [idle] at other
  cases other

theorem next_introduced (name : Ident) (trails : Trails rest) :
    introducedString name rest = some (none, rest) := by
  match rest, trails with
  | [], _ => rfl
  | .symbol _ :: _, _ => rfl
  | .word _ :: _, _ => rfl

theorem named_name (g : Grammar) (lower : Lower) (name : Ident) (more : Name)
    (trails : Trails rest) :
    g.named lower name ((more.flatMap fun next => [.symbol ".", .word next]) ++ rest) =
      some (Name.expr (name :: more), rest) := by
  have period := next_symbol trails "." (by decide)
  have parenthesis := next_sees_symbol trails "(" (by decide)
  have string : introducedString name
      ((more.flatMap fun next => [.symbol ".", .word next]) ++ rest) =
        some (none, (more.flatMap fun next => [.symbol ".", .word next]) ++ rest) := by
    cases more with
    | nil => exact next_introduced name trails
    | cons second more => rfl
  have ends : (do if ← symbol? "." then return some (← ident) else return none :
      Parser (Option Ident)) rest = some (none, rest) := by
    simp only [bind_run, pure_run, period, Option.bind_some, Bool.false_eq_true, if_false]
  have reads : ∀ next ∈ more, ∀ tokens, True →
      (do if ← symbol? "." then return some (← ident) else return none : Parser (Option Ident))
        ([.symbol ".", .word next] ++ tokens) = some (some (id next), tokens) := by
    intro next _ tokens _
    simp only [List.cons_append, List.nil_append, bind_run, pure_run, symbol_read, ident,
      Option.bind_some, if_true, id]
  have further := many_read reads (fun _ _ _ => trivial) trivial ends
    (fun _ _ => List.cons_ne_nil _ _)
  rw [List.map_id] at further
  simp only [named, bind_run, string, further, parenthesis, Option.bind_some, Bool.false_eq_true,
    if_false]
  cases more <;> rfl

theorem operand_name (g : Grammar) (lower : Lower) (idle : isIdle name.keyword)
    (more : Name) (trails : Trails rest) :
    g.operand lower (Name.tokens (name :: more) ++ rest) =
      some (Name.expr (name :: more), rest) := by
  have collate := next_keyword trails "COLLATE" (by decide)
  have plain : g.plainOperand lower (Name.tokens (name :: more) ++ rest) =
      some (Name.expr (name :: more), rest) := by
    rw [name_tokens_cons, List.cons_append]
    simp only [plainOperand, bind_run, Parser.next, Option.bind_some,
      special_forms_idle g lower idle, named_name g lower name more trails]
  simp only [operand, bind_run, pure_run, Option.bind_some, plain, collate, Bool.false_eq_true,
    attempt_none (typed_literal_name lower idle trails), if_false]

-- What begins with another token than a word.
theorem operand_other (g : Grammar) (lower : Lower) {token : Token} {before : List Token} {e : Expr}
    (other : token.isWord = false) (reads : g.plainOperand lower (token :: before) = some (e, rest))
    (trails : Trails rest) : g.operand lower (token :: before) = some (e, rest) := by
  have collate := next_keyword trails "COLLATE" (by decide)
  simp only [operand, bind_run, pure_run, attempt_none (typed_literal_token lower other before),
    Option.bind_some, reads, collate, Bool.false_eq_true, if_false]

end

/-! ### Conditions -/

-- Tokens that are read as an operand wherever a condition may go on.
structure Legible (g : Grammar) (tokens : List Token) (e : Expr) : Prop where
  operand : ∀ n rest, Trails rest → g.operand (g.lower (n + 1)) (tokens ++ rest) = some (e, rest)
  apart : ∀ rest, oneOf? ["ANY", "ALL"] (tokens ++ rest) = some (none, tokens ++ rest)
  inhabited : tokens ≠ []

theorem name_legible (g : Grammar) {name : Ident} (idle : isIdle name.keyword) (more : Name) :
    Legible g (Name.tokens (name :: more)) (Name.expr (name :: more)) := by
  refine ⟨fun n rest trails => operand_name g _ idle more trails, fun rest => ?_, ?_⟩
  · have quantifiers : ∀ word ∈ ["ANY", "ALL"], isIdle word = false := fun word member =>
      query_word_busy (List.mem_append_right ["SELECT", "WITH"] member)
    exact next_one_of (name_next idle more rest) quantifiers
  · rw [name_tokens_cons]
    exact List.cons_ne_nil _ _

theorem string_legible (g : Grammar) (value : Text) :
    Legible g [.string value] (.string value) :=
  ⟨fun _ _ trails => operand_other g _ rfl rfl trails, fun _ => one_of_none fun _ _ => rfl,
    List.cons_ne_nil _ _⟩

-- A condition is read before what joins it to another. A comparison takes one step for that, and a
-- condition in parentheses none.
structure Joinable (g : Grammar) (p : Phrase) : Prop where
  reads : ∃ used ≤ 1, ∀ n least steps rest, least < comparisonRank → Trails rest →
    rankOf rest < comparisonRank →
      (g.operand (g.lower (n + 2)) (p.tokens ++ rest)).bind (fun found =>
          g.extend (g.lower (n + 2)) rankOf least (steps + used) found.1 found.2) =
        g.extend (g.lower (n + 2)) rankOf least steps p.expr rest
  apart : ∀ rest, oneOf? ["ANY", "ALL"] (p.tokens ++ rest) = some (none, p.tokens ++ rest)
  long : 3 ≤ p.tokens.length

-- A word that joins conditions and binds them less than equality does.
structure Connects (word : Ident) (op : BinaryOp) (rank : Nat) : Prop where
  operator : operatorWords.lookup word.keyword = some (rank, op)
  trails : ∀ tokens, Trails (.word word :: tokens)
  above : 0 < rank
  below : rank < comparisonRank

section
variable {g : Grammar} {tokens rest : List Token} {e : Expr} {word : Ident} {op : BinaryOp}
  {least weight : Nat}

theorem rank_closes (closes : Closes rest) : rankOf rest = 0 := by
  match rest, closes with
  | [], _ => rfl
  | .symbol symbol :: _, (closes : symbol ∈ [",", ")"]) =>
    simp only [List.mem_cons, List.not_mem_nil, or_false] at closes
    rcases closes with rfl | rfl <;> rfl
  | .word name :: _, (closes : ["FROM", "JOIN", "WHERE"].contains name.keyword = true) =>
    simp only [List.contains_eq_mem, List.mem_cons, List.not_mem_nil, or_false,
      decide_eq_true_eq] at closes
    rcases closes with same | same | same <;> simp only [rankOf, same] <;> rfl

theorem Connects.rank (connects : Connects word op weight) (rest : List Token) :
    rankOf (.word word :: rest) = weight := by
  simp only [rankOf, connects.operator]

theorem extend_stop (g : Grammar) (lower : Lower) (n : Nat) (left : Expr)
    (lowest : rankOf rest ≤ least) :
    g.extend lower rankOf least (n + 1) left rest = some (left, rest) := by
  simp only [extend, if_neg (Nat.not_lt.mpr lowest)]

theorem extend_step (lower : Lower) (n : Nat) {left more : Expr} (higher : least < rankOf tokens)
    (reads : g.continuation lower left tokens = some (more, rest)) :
    g.extend lower rankOf least (n + 1) left tokens = g.extend lower rankOf least n more rest := by
  simp only [extend, if_pos higher, bind_run, reads, Option.bind_some]

theorem above_run (g : Grammar) (n least : Nat) (tokens : List Token) :
    (g.lower (n + 1)).above least tokens = (g.operand (g.lower n) tokens).bind fun found =>
      g.extend (g.lower n) rankOf least (n + 1) found.1 found.2 := rfl

theorem Legible.above (side : Legible g tokens e) (n : Nat) (trails : Trails rest)
    (lowest : rankOf rest ≤ least) :
    (g.lower (n + 2)).above least (tokens ++ rest) = some (e, rest) := by
  rw [above_run, side.operand n rest trails]
  exact extend_stop g _ (n + 1) e lowest

theorem Legible.whole (side : Legible g tokens e) (closes : Closes rest) :
    g.wholeExpr (tokens ++ rest) = some (e, rest) := by
  have length := List.length_pos_iff.mpr side.inhabited
  obtain ⟨n, size⟩ : ∃ n, (tokens ++ rest).length = n + 1 :=
    Nat.exists_eq_add_of_le' (by rw [List.length_append]; omega)
  rw [wholeExpr, size]
  exact side.above n (closes_trails closes) (Nat.le_of_eq (rank_closes closes))

theorem Legible.compares (side : Legible g tokens e) (op : ComparisonOp) (n : Nat) (left : Expr)
    (trails : Trails rest) (lowest : rankOf rest ≤ comparisonRank) :
    g.continuation (g.lower (n + 2)) left (.symbol op.symbol :: (tokens ++ rest)) =
      some (.binary left (.compare op) e, rest) := by
  have operator : operatorSymbols.lookup op.symbol = some (comparisonRank, .compare op) := by
    cases op <;> rfl
  simp only [continuation, continueSymbol, rightOperand, bind_run, Parser.next, operator,
    Option.bind_some, side.apart, side.above n trails lowest, pure_run]

theorem compared_joinable {left right : Phrase} (here : Legible g left.tokens left.expr)
    (op : ComparisonOp) (there : Legible g right.tokens right.expr) :
    Joinable g (left.compared op right) := by
  have symbol : ∀ tokens, Trails (.symbol op.symbol :: tokens) := fun _ => by
    cases op <;> simp [Next, ComparisonOp.symbol]
  have rank : ∀ tokens, rankOf (.symbol op.symbol :: tokens) = comparisonRank := fun _ => by
    cases op <;> rfl
  refine ⟨⟨1, Nat.le_refl 1, fun n least steps rest loose trails lowest => ?_⟩, fun rest => ?_, ?_⟩
  · have compares := there.compares op n left.expr trails (Nat.le_of_lt lowest)
    rw [Phrase.compared, List.append_assoc, List.cons_append, here.operand _ _ (symbol _)]
    exact extend_step _ steps (by rwa [rank]) compares
  · rw [Phrase.compared, List.append_assoc]
    exact here.apart _
  · have first := List.length_pos_iff.mpr here.inhabited
    have second := List.length_pos_iff.mpr there.inhabited
    rw [Phrase.compared, List.length_append, List.length_cons]
    omega

theorem legible_joinable {p : Phrase} (legible : Legible g p.tokens p.expr)
    (long : 3 ≤ p.tokens.length) : Joinable g p := by
  refine ⟨⟨0, Nat.zero_le 1, fun n least steps rest _ trails _ => ?_⟩, legible.apart, long⟩
  rw [legible.operand _ _ trails]
  rfl

theorem Joinable.above {p : Phrase} (joinable : Joinable g p) (n : Nat)
    (loose : least < comparisonRank) (trails : Trails rest) (lowest : rankOf rest ≤ least) :
    (g.lower (n + 3)).above least (p.tokens ++ rest) = some (p.expr, rest) := by
  obtain ⟨used, few, reads⟩ := joinable.reads
  obtain ⟨steps, fuel⟩ : ∃ steps, n + 2 + 1 = steps + 1 + used :=
    ⟨n + 2 - used, by omega⟩
  rw [above_run, fuel, reads n least _ rest loose trails (Nat.lt_of_le_of_lt lowest loose)]
  exact extend_stop g _ steps p.expr lowest

theorem connective_continues {p : Phrase} (connects : Connects word op weight)
    (joinable : Joinable g p) (n : Nat) (left : Expr) (trails : Trails rest)
    (lowest : rankOf rest ≤ weight) :
    g.continuation (g.lower (n + 3)) left (.word word :: (p.tokens ++ rest)) =
      some (.binary left op p.expr, rest) := by
  simp only [continuation, continueWord, rightOperand, bind_run, Parser.next, connects.operator,
    Option.bind_some, joinable.apart, joinable.above n connects.below trails lowest, pure_run]

theorem chain_follows (connects : Connects word op weight) (more : List Phrase)
    (closes : Closes rest) :
    Trails (Phrase.chained word more ++ rest) ∧
      rankOf (Phrase.chained word more ++ rest) ≤ weight := by
  cases more with
  | nil => exact ⟨closes_trails closes, (rank_closes closes).symm ▸ Nat.zero_le _⟩
  | cons second more =>
    rw [Phrase.chained_cons]
    exact ⟨connects.trails _, Nat.le_of_eq (connects.rank _)⟩

-- Each condition behind the connective is taken up from the left, one step each.
theorem extend_chain (connects : Connects word op weight) (n : Nat) {more : List Phrase}
    (joinable : ∀ p ∈ more, Joinable g p) (closes : Closes rest) {steps : Nat}
    (enough : more.length < steps) (left : Expr) :
    g.extend (g.lower (n + 3)) rankOf 0 steps left (Phrase.chained word more ++ rest) =
      some (Phrase.combined op left more, rest) := by
  induction more generalizing left steps with
  | nil =>
    obtain ⟨steps, rfl⟩ := Nat.exists_eq_succ_of_ne_zero (Nat.ne_of_gt enough)
    exact extend_stop g _ steps left (Nat.le_of_eq (rank_closes closes))
  | cons p more ih =>
    obtain ⟨first, later⟩ := List.forall_mem_cons.mp joinable
    obtain ⟨steps, rfl⟩ := Nat.exists_eq_succ_of_ne_zero (Nat.ne_of_gt (Nat.zero_lt_of_lt enough))
    have others := ih later (Nat.lt_of_succ_lt_succ enough) (.binary left op p.expr)
    have follows := chain_follows connects more closes
    have higher : 0 < rankOf (.word word :: (p.tokens ++ (Phrase.chained word more ++ rest))) := by
      rw [connects.rank]
      exact connects.above
    rw [Phrase.chained_cons, extend_step _ steps higher
      (connective_continues connects first n left follows.1 follows.2)]
    exact others

theorem whole_chain (connects : Connects word op weight) {first : Phrase} {more : List Phrase}
    (joinable : ∀ p ∈ first :: more, Joinable g p) (closes : Closes rest) :
    g.wholeExpr (first.tokens ++ (Phrase.chained word more ++ rest)) =
      some (Phrase.combined op first.expr more, rest) := by
  obtain ⟨here, later⟩ := List.forall_mem_cons.mp joinable
  have follows := chain_follows connects more closes
  have size : more.length + 3 ≤ (first.tokens ++ (Phrase.chained word more ++ rest)).length := by
    have chain := Phrase.chained_length word more
    have long := here.long
    rw [List.length_append, List.length_append]
    omega
  obtain ⟨n, length⟩ := Nat.exists_eq_add_of_le' (Nat.le_trans (Nat.le_add_left 3 _) size)
  obtain ⟨used, few, reads⟩ := here.reads
  obtain ⟨steps, fuel⟩ : ∃ steps, n + 3 + 1 = steps + used := ⟨n + 4 - used, by omega⟩
  rw [wholeExpr, length, above_run, fuel, reads (n + 1) 0 steps _ (by decide) follows.1
    (Nat.lt_of_le_of_lt follows.2 connects.below)]
  exact extend_chain connects n later closes (by omega) first.expr

end

end Grammar
end TripleTable.Sql
