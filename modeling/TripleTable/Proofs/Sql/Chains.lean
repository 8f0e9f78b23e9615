import Mathlib.Data.List.Induction
import TripleTable.Proofs.Shape.Grouping
import TripleTable.Proofs.Sql.Conditions
import TripleTable.Proofs.Sql.Groups
import TripleTable.Proofs.Sql.Spelling
set_option autoImplicit false

/-!
Printed conditions read back: names that need no quotes, comparisons, and chains of one connective,
which are read from the left however the tree that was printed grouped them.
-/
namespace TripleTable.Sql
open Shape (IsConnective Regrouped)

/-! ### Names -/

-- The words that begin something else than a name where the grammar looks for one.
def openingWords : List String :=
  operandWords ++ ["DISTINCT", "TOP", "LATERAL", "TABLE", "UNNEST", "JSON_TABLE"]

-- Names that need no quotes.
structure PlainPath (names : Name) : Prop where
  inhabited : names ≠ []
  bare : ∀ name ∈ names, name.quote = none ∧ isBareWord name.value
  leads : ∀ first ∈ names.head?, first.keyword ∉ openingWords

instance : DecidablePred PlainPath := fun names =>
  decidable_of_iff (names ≠ [] ∧ (∀ name ∈ names, name.quote = none ∧ isBareWord name.value) ∧
      ∀ first ∈ names.head?, first.keyword ∉ openingWords)
    ⟨fun ⟨inhabited, bare, leads⟩ => ⟨inhabited, bare, leads⟩,
      fun ⟨inhabited, bare, leads⟩ => ⟨inhabited, bare, leads⟩⟩

theorem PlainPath.next {names : Name} (path : PlainPath names) (symbols : List String)
    (rest : List Token) :
    Next symbols (fun word => !openingWords.contains word) (names.tokens ++ rest) := by
  cases names with
  | nil => exact absurd rfl path.inhabited
  | cons first more =>
    have other := path.leads first rfl
    rw [name_tokens_cons]
    simpa [Next] using other

theorem PlainPath.idle {names : Name} (path : PlainPath names) :
    ∀ first ∈ names.head?, isIdle first.keyword := by
  intro first head
  have other : first.keyword ∉ operandWords := fun member =>
    path.leads first head (List.mem_append_left _ member)
  simpa [isIdle] using other

theorem PlainPath.begins {names : Name} (path : PlainPath names) (rest : List Token) :
    Next [] isIdle (names.tokens ++ rest) := by
  cases names with
  | nil => exact absurd rfl path.inhabited
  | cons first more => exact Grammar.name_next (path.idle first rfl) more rest

theorem qualified_expr {qualifier : Name} (inhabited : qualifier ≠ []) (column : Ident) :
    Name.expr (qualifier ++ [column]) = .path (qualifier ++ [column]) := by
  match qualifier, inhabited with
  | [_], _ => rfl
  | _ :: _ :: _, _ => rfl

theorem qualified_plain {qualifier : Name} (inhabited : qualifier ≠ []) (column : Ident) :
    PlainPath (qualifier ++ [column]) ↔
      PlainPath qualifier ∧ column.quote = none ∧ isBareWord column.value := by
  have head : (qualifier ++ [column]).head? = qualifier.head? := by
    cases qualifier with
    | nil => exact absurd rfl inhabited
    | cons first rest => rfl
  constructor
  · intro path
    have bare := List.forall_mem_append.mp path.bare
    exact ⟨⟨inhabited, bare.1, head ▸ path.leads⟩, bare.2 column List.mem_cons_self⟩
  · rintro ⟨path, bare⟩
    have all := List.forall_mem_append.mpr ⟨path.bare, List.forall_mem_singleton.mpr bare⟩
    exact ⟨by simp, all, head ▸ path.leads⟩

theorem path_legible (g : Grammar) {names : Name} (path : PlainPath names) :
    Grammar.Legible g names.tokens names.expr := by
  cases names with
  | nil => exact absurd rfl path.inhabited
  | cons first more => exact Grammar.name_legible g (path.idle first rfl) more

theorem name_expr_text (names : Name) : names.expr.text = names.text := by
  match names with
  | [] => rfl
  | [name] => simp [Name.expr, Expr.text, Name.text, Text.join]
  | _ :: _ :: _ => rfl

section
variable {rest : Text} {tokens : List Token}

theorem lexes_names {names : Name} (inhabited : names ≠ [])
    (bare : ∀ name ∈ names, name.quote = none ∧ isBareWord name.value) (ends : Ends rest)
    (lexes : LexesTo rest tokens) : LexesTo (names.text ++ rest) (names.tokens ++ tokens) := by
  have word : ∀ name ∈ names, name = ⟨name.value, none⟩ := fun name member => by
    rw [← (bare name member).1]
  have parts : ∀ part ∈ names.map Ident.value, isBareWord part :=
    List.forall_mem_map.mpr fun name member => (bare name member).2
  have text : names.text = Text.join ['.'] (names.map Ident.value) := by
    refine congrArg (Text.join ['.']) (List.map_congr_left fun name member => ?_)
    rw [word name member]
    rfl
  have written : names.tokens = [Token.symbol "."].intercalate
      ((names.map Ident.value).map fun part => [nameToken part]) := by
    rw [Name.tokens, List.map_map]
    refine congrArg _ (List.map_congr_left fun name member => ?_)
    rw [word name member]
    rfl
  rw [text, written]
  exact (lexes_dotted parts (by simpa using inhabited) ends lexes).1

theorem lexes_comparison (op : ComparisonOp) (lexes : LexesTo rest tokens) :
    LexesTo (op.text ++ ' ' :: rest) (.symbol op.symbol :: tokens) := by
  have behind : LexesTo (' ' :: rest) tokens := lexes_blank (by decide) lexes
  cases op with
  | eq => exact lexes_equals lexes
  | lt => exact lexes_token (by decide) (by decide) rfl (Nat.le_refl _) behind
  | le => exact lexes_token (by decide) (by decide) rfl (by simp) behind
  | gt => exact lexes_token (by decide) (by decide) rfl (Nat.le_refl _) behind
  | ge => exact lexes_token (by decide) (by decide) rfl (by simp) behind
  | ne => exact lexes_token (by decide) (by decide) rfl (by simp) behind

end

/-! ### Phrases as they are printed -/

-- The text of a phrase falls into its tokens, wherever what follows ends it.
def Phrase.Printed (stop : Text → Prop) (p : Phrase) : Prop :=
  ∀ rest tokens, stop rest → LexesTo rest tokens →
    LexesTo (p.expr.text ++ rest) (p.tokens ++ tokens)

theorem path_printed {names : Name} (path : PlainPath names) : names.phrase.Printed Ends := by
  intro rest tokens ends lexes
  have lexed := lexes_names path.inhabited path.bare ends lexes
  rwa [← name_expr_text] at lexed

theorem compared_printed {stop : Text → Prop} {left right : Phrase} (op : ComparisonOp)
    (front : left.Printed Ends) (back : right.Printed stop) :
    (left.compared op right).Printed stop := by
  intro rest tokens stops lexes
  have operator := lexes_comparison op (back rest tokens stops lexes)
  have whole := front _ _ (by simp [Ends]) (lexes_blank (c := ' ') (by decide) operator)
  simpa [Phrase.compared, Expr.text, BinaryOp.text] using whole

/-! ### Chains -/

def BinaryOp.word (op : BinaryOp) : Ident := ⟨op.text, none⟩

-- An expression that is printed as conditions with one connective between them, and the tree that
-- they are read back as.
structure Chain (g : Grammar) (stop : Text → Prop) (op : BinaryOp) (e : Expr) (first : Phrase)
    (more : List Phrase) : Prop where
  printed : ∀ rest tokens, stop rest → LexesTo rest tokens →
    LexesTo (e.text ++ rest) (first.tokens ++ (Phrase.chained op.word more ++ tokens))
  joinable : ∀ p ∈ first :: more, Grammar.Joinable g p
  regrouped : Regrouped e (Phrase.combined op first.expr more)

theorem connective_connects {op : BinaryOp} (connective : IsConnective op) :
    ∃ rank, Grammar.Connects op.word op rank := by
  rcases connective with rfl | rfl
  · exact ⟨_, Grammar.and_connects true⟩
  · exact ⟨_, Grammar.or_connects (by decide)⟩

-- The chain on the right is taken up by the one on the left, one condition at a time.
theorem regrouped_chain {op : BinaryOp} (connective : IsConnective op) (left first : Expr)
    (more : List Phrase) :
    Regrouped (.binary left op (Phrase.combined op first more))
      (Phrase.combined op (.binary left op first) more) := by
  induction more using List.reverseRecOn with
  | nil => exact .refl _
  | append_singleton more p ih =>
    simp only [Phrase.combined, List.foldl_append, List.foldl_cons, List.foldl_nil] at ih ⊢
    exact (Regrouped.rotate _ _ _ connective).trans (.connective connective ih (.refl _))

namespace Chain
variable {g : Grammar} {stop : Text → Prop} {op : BinaryOp} {first second : Phrase}
  {more others : List Phrase}

theorem single {p : Phrase} (printed : p.Printed stop) (joinable : Grammar.Joinable g p) :
    Chain g stop op p.expr p [] :=
  ⟨printed, by simpa using joinable, .refl _⟩

theorem both {left right : Expr} (connective : IsConnective op)
    (blank : ∀ rest, stop (' ' :: rest)) (front : Chain g stop op left first more)
    (back : Chain g stop op right second others) :
    Chain g stop op (.binary left op right) first (more ++ second :: others) where
  printed := by
    intro rest tokens stops lexes
    have bare : isBareWord op.text := by rcases connective with rfl | rfl <;> decide
    have word := lexes_bare bare (by simp [Ends])
      (lexes_blank (c := ' ') (by decide) (back.printed rest tokens stops lexes))
    have whole := front.printed _ _ (blank _) (lexes_blank (c := ' ') (by decide) word)
    simpa [Expr.text, Phrase.chained, BinaryOp.word] using whole
  joinable := by
    have here := List.forall_mem_cons.mp front.joinable
    exact List.forall_mem_cons.mpr
      ⟨here.1, List.forall_mem_append.mpr ⟨here.2, back.joinable⟩⟩
  regrouped := by
    have joined := (Regrouped.connective connective front.regrouped back.regrouped).trans
      (regrouped_chain connective _ _ _)
    simpa [Phrase.combined] using joined

theorem reads {e : Expr} {rest : List Token} (chain : Chain g stop op e first more)
    (connective : IsConnective op) (closes : Closes rest) :
    g.wholeExpr (first.tokens ++ (Phrase.chained op.word more ++ rest)) =
      some (Phrase.combined op first.expr more, rest) := by
  obtain ⟨rank, connects⟩ := connective_connects connective
  exact Grammar.whole_chain connects chain.joinable closes

def grouped (op : BinaryOp) (first : Phrase) (more : List Phrase) : Phrase where
  tokens := .symbol "(" :: (first.tokens ++ Phrase.chained op.word more ++ [.symbol ")"])
  expr := .nested (Phrase.combined op first.expr more)

-- A chain in parentheses is one condition.
theorem nested {h : Grammar} {e : Expr} {outer : Text → Prop} (other : BinaryOp)
    {symbols : List String} (chain : Chain g stop op e first more) (connective : IsConnective op)
    (inner : h.expr = g.wholeExpr) (begins : ∀ rest, Next symbols isIdle (first.tokens ++ rest))
    (close : ∀ rest, stop (')' :: rest)) :
    Chain h outer other (.nested e) (grouped op first more) [] where
  printed := by
    intro rest tokens _ lexes
    have inside := chain.printed _ _ (close rest) (lexes_parenthesis (.inr rfl) lexes)
    have whole := lexes_parenthesis (.inl rfl) inside
    simpa [Expr.text, grouped, Phrase.chained] using whole
  joinable := by
    have first_next : ∀ rest,
        Next symbols isIdle (first.tokens ++ Phrase.chained op.word more ++ rest) := by
      intro rest
      rw [List.append_assoc]
      exact begins _
    have read : ∀ rest,
        g.wholeExpr (first.tokens ++ Phrase.chained op.word more ++ .symbol ")" :: rest) =
          some (Phrase.combined op first.expr more, .symbol ")" :: rest) := by
      intro rest
      have closes : Closes (.symbol ")" :: rest) := by simp [Next]
      rw [List.append_assoc]
      exact chain.reads connective closes
    have legible : Grammar.Legible h (grouped op first more).tokens (grouped op first more).expr :=
      Grammar.nested_legible inner first_next read
    have long := (chain.joinable first List.mem_cons_self).long
    refine List.forall_mem_singleton.mpr (Grammar.legible_joinable legible ?_)
    simp only [grouped, List.length_cons, List.length_append]
    omega
  regrouped := .nested chain.regrouped

end Chain
end TripleTable.Sql
