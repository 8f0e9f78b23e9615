import TripleTable.Proofs.Sql.Lexing
import TripleTable.Proofs.Sql.PlainSelect
import TripleTable.Proofs.Text.Numbers
set_option autoImplicit false

/-!
How spelled words, dotted names, numbers and joined texts fall into tokens.
-/
namespace TripleTable.Sql

theorem items_joined (items : List Item) :
    itemsText items = Text.join ", " (items.map Item.text) := by
  have others : ∀ more : List Item,
      moreItemsText more = (more.map Item.text).flatMap (", ".toList ++ ·) := by
    intro more
    induction more with
    | nil => rfl
    | cons item more ih =>
      rw [List.map_cons, List.flatMap_cons, ← ih]
      rfl
  cases items with
  | nil => rfl
  | cons item more =>
    rw [List.map_cons, Text.join, intercalate_flat, ← others]
    rfl

theorem sources_joined {sources : List Source} (inhabited : sources ≠ []) :
    sourcesText sources = " FROM ".toList ++ Text.join ", " (sources.map Source.text) := by
  have others : ∀ more : List Source,
      moreSourcesText more = (more.map Source.text).flatMap (", ".toList ++ ·) := by
    intro more
    induction more with
    | nil => rfl
    | cons source more ih =>
      rw [List.map_cons, List.flatMap_cons, ← ih]
      rfl
  cases sources with
  | nil => exact absurd rfl inhabited
  | cons source more =>
    rw [List.map_cons, Text.join, intercalate_flat, ← others, ← List.append_assoc]
    rfl

section
variable {rest : Text} {tokens : List Token}

theorem lexes_spelled (printed : Bool) (word : String)
    (bare : ∀ printed, isBareWord (spell printed word)) (lexes : LexesTo rest tokens) :
    LexesTo (spell printed word ++ ' ' :: rest) (keywordToken printed word :: tokens) :=
  lexes_bare (bare printed) (by simp [Ends]) (lexes_blank (by decide) lexes)

-- Items with a separator between them, of which each is read up to what may end it.
theorem lexes_joined {α : Type} {text : α → Text} {itemTokens : α → List Token} {separator : Text}
    {mark : List Token} {stop : Text → Prop}
    {list : List α} (item : ∀ a ∈ list, ∀ rest tokens, stop rest → LexesTo rest tokens →
      LexesTo (text a ++ rest) (itemTokens a ++ tokens))
    (between : ∀ rest tokens, LexesTo rest tokens →
      stop (separator ++ rest) ∧ LexesTo (separator ++ rest) (mark ++ tokens))
    (inhabited : list ≠ []) (ends : stop rest) (lexes : LexesTo rest tokens) :
    LexesTo (Text.join separator (list.map text) ++ rest)
      (mark.intercalate (list.map itemTokens) ++ tokens) := by
  induction list with
  | nil => exact absurd rfl inhabited
  | cons a list ih =>
    obtain ⟨here, later⟩ := List.forall_mem_cons.mp item
    cases list with
    | nil => simpa [Text.join] using here rest tokens ends lexes
    | cons b list =>
      have others := ih later (by simp)
      obtain ⟨stops, separated⟩ := between _ _ others
      have whole := here _ _ stops separated
      simpa [Text.join] using whole

theorem lexes_listed {α : Type} {text : α → Text} {itemTokens : α → List Token} {list : List α}
    (item : ∀ a ∈ list, ∀ rest tokens, Ends rest → LexesTo rest tokens →
      LexesTo (text a ++ rest) (itemTokens a ++ tokens))
    (inhabited : list ≠ []) (ends : Ends rest) (lexes : LexesTo rest tokens) :
    LexesTo (Text.join ", " (list.map text) ++ rest)
      ([Token.symbol ","].intercalate (list.map itemTokens) ++ tokens) := by
  have between : ∀ rest tokens, LexesTo rest tokens → Ends (", ".toList ++ rest) ∧
      LexesTo (", ".toList ++ rest) ([Token.symbol ","] ++ tokens) := fun rest tokens lexes =>
    ⟨by simp [Ends], lexes_comma (lexes_blank (by decide) lexes)⟩
  exact lexes_joined item between inhabited ends lexes

-- The dots of a name stand before the first letter of a word, so they begin no number.
theorem lexes_dotted {parts : List Text} (bare : ∀ part ∈ parts, isBareWord part)
    (inhabited : parts ≠ []) (ends : Ends rest) (lexes : LexesTo rest tokens) :
    LexesTo (Text.join ['.'] parts ++ rest)
        ([Token.symbol "."].intercalate (parts.map fun part => [nameToken part]) ++ tokens) ∧
      ∃ c ∈ (Text.join ['.'] parts ++ rest).head?, isNameStart c := by
  induction parts with
  | nil => exact absurd rfl inhabited
  | cons part parts ih =>
    obtain ⟨here, later⟩ := List.forall_mem_cons.mp bare
    obtain ⟨c, more, rfl, start⟩ : ∃ c more, part = c :: more ∧ isNameStart c := by
      cases part with
      | nil => cases here
      | cons c more =>
        simp only [isBareWord, List.head?_cons, Option.any_some, Bool.and_eq_true] at here
        exact ⟨c, more, rfl, here.1⟩
    cases parts with
    | nil =>
      refine ⟨?_, c, by simp [Text.join], start⟩
      simpa [Text.join, nameToken] using lexes_bare here ends lexes
    | cons second parts =>
      obtain ⟨others, d, head, letter⟩ := ih later (by simp)
      refine ⟨?_, c, by simp [Text.join], start⟩
      have joined : Text.join ['.'] ((c :: more) :: second :: parts) ++ rest =
          (c :: more) ++ '.' :: (Text.join ['.'] (second :: parts) ++ rest) := by
        simp [Text.join]
      rw [joined]
      generalize Text.join ['.'] (second :: parts) ++ rest = behind at others head
      cases behind with
      | nil => cases head
      | cons e behind =>
        cases head
        have period := lexes_period letter others
        simpa [nameToken] using lexes_bare here (by simp [Ends]) period

/-! ### Numbers -/

-- What is printed behind a number: a blank or a closing parenthesis.
def EndsNumber (rest : Text) : Prop := ∀ c ∈ rest.head?, c = ' ' ∨ c = ')'

theorem number_token_digits {digits : Text} (inhabited : digits ≠ [])
    (all : ∀ c ∈ digits, c.isDigit) (ends : EndsNumber rest) :
    numberToken (digits ++ rest) = (.number digits false, rest) := by
  have other : ∀ c, c ≠ ' ' → c ≠ ')' → rest.head? ≠ some c := by
    intro c blank parenthesis head
    rcases ends c head with same | same
    · exact blank same
    · exact parenthesis same
  have stops : ∀ c ∈ rest.head?, c.isDigit = false := by
    intro c head
    rcases ends c head with rfl | rfl <;> rfl
  obtain ⟨taken, dropped⟩ := run_exact all stops
  obtain ⟨none_taken, none_dropped⟩ := stops_run stops
  have power : exponent rest = [] := by
    cases rest with
    | nil => rfl
    | cons c rest =>
      have small : c ≠ 'e' := fun same => other 'e' (by decide) (by decide) (by simp [same])
      have large : c ≠ 'E' := fun same => other 'E' (by decide) (by decide) (by simp [same])
      simp only [exponent, small, large, or_self, if_false]
  have period : digits ≠ ['.'] := by
    rintro rfl
    exact absurd (all '.' List.mem_cons_self) (by decide)
  simp only [numberToken, taken, dropped, other 'x' (by decide) (by decide),
    other '.' (by decide) (by decide), other 'L' (by decide) (by decide), none_taken, none_dropped,
    power, period, and_false, if_false, List.length_nil, List.drop_zero, List.append_nil,
    decide_false]

theorem digit_at {c : Char} (digit : c.isDigit) (s : Text) :
    tokenAt c s = some (numberToken (c :: s)) := by
  have bounds := digit_bounds digit
  have other : ∀ d : Char, d.isDigit = false → c ≠ d := by
    rintro d apart rfl
    rw [digit] at apart
    cases apart
  have letter : c.isAlpha = false := control_not_alpha (by omega)
  simp only [tokenAt, letter, digit, other '\'' (by decide), other '"' (by decide),
    other '\x60' (by decide), if_false, if_true, or_self, Bool.true_or, Bool.false_eq_true]

theorem lexes_digits {digits : Text} (inhabited : digits ≠ []) (all : ∀ c ∈ digits, c.isDigit)
    (ends : EndsNumber rest) (lexes : LexesTo rest tokens) :
    LexesTo (digits ++ rest) (.number digits false :: tokens) := by
  cases digits with
  | nil => exact absurd rfl inhabited
  | cons c digits =>
    have digit := all c List.mem_cons_self
    have read : tokenAt c (digits ++ rest) = some (.number (c :: digits) false, rest) := by
      rw [digit_at digit, ← List.cons_append, number_token_digits inhabited all ends]
    have code : c ≠ '-' ∧ c ≠ '/' := by
      constructor <;> rintro rfl <;> cases digit
    have alphanumeric : c.isAlphanum := by simp [Char.isAlphanum, digit]
    have solid := alphanumeric_not_blank (isAlphanumeric_of_isAlphanum alphanumeric)
    exact lexes_token solid code read (by simp) lexes

-- A sign before a sign would begin a comment, and one before an angle an arrow.
theorem lexes_minus {c : Char} (digit : c.isDigit) (lexes : LexesTo (c :: rest) tokens) :
    LexesTo ('-' :: c :: rest) (.symbol "-" :: tokens) := by
  have sign : c ≠ '-' := by
    rintro rfl
    cases digit
  have angle : '>' ≠ c := by
    rintro rfl
    cases digit
  have longest : longestSymbol? ('-' :: c :: rest) = some ("-", c :: rest) := by
    simp [longestSymbol?, symbols, Text.after?, angle]
  have letter : '-'.isAlpha = false := by decide
  have read : tokenAt '-' (c :: rest) = some (.symbol "-", c :: rest) := by
    simp [tokenAt, letter, longest]
  exact lexes_solid (by decide) (by simp [sign]) (by simp) read (Nat.le_refl _) lexes

theorem lexes_parenthesis {c : Char} (parenthesis : c = '(' ∨ c = ')')
    (lexes : LexesTo rest tokens) :
    LexesTo (c :: rest) (.symbol (String.ofList [c]) :: tokens) := by
  rcases parenthesis with rfl | rfl
  · exact lexes_token (by decide) (by decide) rfl (Nat.le_refl _) lexes
  · exact lexes_token (by decide) (by decide) rfl (Nat.le_refl _) lexes

end
end TripleTable.Sql
