import TripleTable.Proofs.Text.Characters
import TripleTable.Sql.Keyword
import TripleTable.Sql.Token
set_option autoImplicit false

/-!
How a text falls into tokens from its front, one at a time: names up to what ends them, strings up
to a quote that is not doubled.
-/
namespace TripleTable.Sql

def LexesTo (s : Text) (tokens : List Token) : Prop :=
  ∀ n, s.length ≤ n → tokensUpTo n s = some tokens

section
variable {c : Char} {s rest : Text} {token : Token} {tokens : List Token}

theorem lexes_all (lexes : LexesTo s tokens) : tokens? s = some tokens :=
  lexes s.length (Nat.le_refl _)

theorem lexes_nil : LexesTo [] [] := by
  intro n _
  cases n <;> rfl

theorem lexes_blank (blank : isBlank c) (lexes : LexesTo s tokens) : LexesTo (c :: s) tokens := by
  intro n length
  cases n with
  | zero => simp at length
  | succ n =>
    rw [tokensUpTo, if_pos blank]
    exact lexes n (by simpa using length)

theorem lexes_solid (solid : isBlank c = false) (line : ¬ (c = '-' ∧ s.head? = some '-'))
    (block : ¬ (c = '/' ∧ s.head? = some '*')) (read : tokenAt c s = some (token, rest))
    (shorter : rest.length ≤ s.length) (lexes : LexesTo rest tokens) :
    LexesTo (c :: s) (token :: tokens) := by
  intro n length
  cases n with
  | zero => simp at length
  | succ n =>
    have enough : rest.length ≤ n := by
      simp only [List.length_cons] at length
      omega
    rw [tokensUpTo, if_neg (by simp [solid]), if_neg line, if_neg block, read]
    simp only [Option.bind_eq_bind, Option.bind_some, lexes n enough]
    rfl

theorem lexes_token (solid : isBlank c = false) (code : c ≠ '-' ∧ c ≠ '/')
    (read : tokenAt c s = some (token, rest)) (shorter : rest.length ≤ s.length)
    (lexes : LexesTo rest tokens) : LexesTo (c :: s) (token :: tokens) :=
  lexes_solid solid (by simp [code]) (by simp [code]) read shorter lexes

end

def isNameStart (c : Char) : Bool := isAlphabetic c || c == '_'

-- A name runs as far as it can. What the printer puts behind one is a blank, a comma, a
-- period, or nothing.
def Ends (rest : Text) : Prop := ∀ c ∈ rest.head?, c = ' ' ∨ c = ',' ∨ c = '.'

theorem name_start_other {c d : Char} (start : isNameStart c) (ascii : isAscii d)
    (other : d.isAlpha = false ∧ d ≠ '_') : c ≠ d := by
  rintro rfl
  simp [isNameStart, isAlphabetic, ascii, other] at start

theorem control_not_alpha {c : Char} (low : c.toNat < 65) : c.isAlpha = false := by
  cases alpha : c.isAlpha with
  | false => rfl
  | true =>
    have bounds := alpha_bounds alpha
    omega

theorem low_not_start {c : Char} (low : c.toNat < 65) : isNameStart c = false := by
  cases start : isNameStart c with
  | false => rfl
  | true =>
    have ascii : isAscii c := by
      simp only [isAscii, decide_eq_true_eq]
      omega
    have underscore : c ≠ '_' := by
      rintro rfl
      simp at low
    exact absurd rfl (name_start_other start ascii ⟨control_not_alpha low, underscore⟩)

theorem name_start_digit {c : Char} (start : isNameStart c) : c.isDigit = false := by
  cases digit : c.isDigit with
  | false => rfl
  | true =>
    have bounds := digit_bounds digit
    rw [low_not_start (by omega)] at start
    cases start

theorem name_start_solid {c : Char} (start : isNameStart c) : isBlank c = false := by
  cases blank : isBlank c with
  | false => rfl
  | true =>
    simp only [isBlank, Bool.or_eq_true, Bool.and_eq_true, beq_iff_eq, decide_eq_true_eq,
      Bool.not_eq_true'] at blank
    rcases blank with (rfl | ⟨-, high⟩) | ⟨wide, covered⟩
    · exact absurd start (by decide)
    · rw [low_not_start (by omega)] at start
      cases start
    · have ascii : ¬ c.toNat < 0x80 := by simpa [isAscii] using wide
      have letter : c.isAlpha = false := by
        cases alpha : c.isAlpha with
        | false => rfl
        | true =>
          have bounds := alpha_bounds alpha
          omega
      have underscore : c ≠ '_' := by
        rintro rfl
        simp at ascii
      simp [isNameStart, isAlphabetic, letter, underscore, covers_apart blank_not_alphabetic covered] at start

theorem name_start_symbol {c : Char} (start : isNameStart c) (s : Text) :
    longestSymbol? (c :: s) = none := by
  have heads : ∀ symbol ∈ symbols, symbol.toList.head?.any fun d =>
      isAscii d && !d.isAlpha && d != '_' := by
    decide
  refine List.findSome?_eq_none_iff.mpr fun symbol member => ?_
  have head := heads symbol member
  cases letters : symbol.toList with
  | nil => simp [letters] at head
  | cons d lead =>
    simp only [letters, List.head?_cons, Option.any_some, Bool.and_eq_true, Bool.not_eq_true',
      bne_iff_ne] at head
    have different := name_start_other start head.1.1 ⟨head.1.2, head.2⟩
    simp [Text.after?, different.symm]

theorem ends_not_part {c : Char} (ends : c = ' ' ∨ c = ',' ∨ c = '.') : isWordPart c = false := by
  rcases ends with rfl | rfl | rfl <;> decide

theorem word_stops {more rest : Text} (part : ∀ c ∈ more, isWordPart c) (ends : Ends rest) :
    (more ++ rest).takeWhile isWordPart = more ∧ (more ++ rest).dropWhile isWordPart = rest :=
  run_exact part fun d head => ends_not_part (ends d head)

-- A name that begins with B, R, N, X or E could introduce a literal, but only with a quote
-- behind that letter.
theorem letter_literal_none {c : Char} {s : Text} (unquoted : ∀ d ∈ s.head?, d ≠ '\'' ∧ d ≠ '"') :
    letterLiteral? c s = none := by
  cases s with
  | nil => simp [letterLiteral?]
  | cons d s =>
    have different := unquoted d rfl
    unfold letterLiteral?
    split <;> simp_all

theorem part_unquoted {d : Char} (part : isWordPart d) : d ≠ '\'' ∧ d ≠ '"' := by
  constructor <;> rintro rfl <;> revert part <;> decide

theorem ends_unquoted {d : Char} (ends : d = ' ' ∨ d = ',' ∨ d = '.') : d ≠ '\'' ∧ d ≠ '"' := by
  rcases ends with rfl | rfl | rfl <;> decide

theorem word_at {c : Char} {more rest : Text} (start : isNameStart c)
    (part : ∀ d ∈ more, isWordPart d) (ends : Ends rest) :
    tokenAt c (more ++ rest) = some (.word ⟨c :: more, none⟩, rest) := by
  have unquoted : ∀ d ∈ (more ++ rest).head?, d ≠ '\'' ∧ d ≠ '"' := by
    intro d head
    cases more with
    | nil => exact ends_unquoted (ends d head)
    | cons e more =>
      obtain rfl : e = d := by simpa using head
      exact part_unquoted (part e List.mem_cons_self)
  have literal : (if c.isAlpha then letterLiteral? c (more ++ rest) else none) = none := by
    rw [letter_literal_none unquoted, ite_self]
  have other : ∀ d, isAscii d → d.isAlpha = false → d ≠ '_' → c ≠ d := fun d ascii letter line =>
    name_start_other start ascii ⟨letter, line⟩
  have quote := other '\'' (by decide) (by decide) (by decide)
  have double := other '"' (by decide) (by decide) (by decide)
  have back := other '\x60' (by decide) (by decide) (by decide)
  have period := other '.' (by decide) (by decide) (by decide)
  have question := other '?' (by decide) (by decide) (by decide)
  have number := other '#' (by decide) (by decide) (by decide)
  have at_sign := other '@' (by decide) (by decide) (by decide)
  have word : isWordStart c := by
    simp only [isNameStart, Bool.or_eq_true] at start
    rcases start with letter | line
    · simp [isWordStart, letter]
    · simp [isWordStart, line]
  have numeral : (c.isDigit || c == '.') = false := by simp [name_start_digit start, period]
  have digits : ((c :: more).all fun d => d.isDigit || d == '.') = false := by
    rw [List.all_cons, numeral, Bool.false_and]
  obtain ⟨taken, dropped⟩ := word_stops part ends
  simp only [tokenAt, literal, quote, double, back, numeral, question, number, at_sign, word,
    name_start_symbol start, if_false, if_true, or_self, wordToken, taken, dropped, digits,
    List.singleton_append, Bool.false_eq_true]

theorem lexes_word {c : Char} (more : Text) {rest : Text} {tokens : List Token}
    (start : isNameStart c) (part : ∀ d ∈ more, isWordPart d) (ends : Ends rest)
    (lexes : LexesTo rest tokens) :
    LexesTo (c :: more ++ rest) (.word ⟨c :: more, none⟩ :: tokens) := by
  have minus := name_start_other start (d := '-') (by decide) (by decide)
  have slash := name_start_other start (d := '/') (by decide) (by decide)
  exact lexes_token (name_start_solid start) ⟨minus, slash⟩ (word_at start part ends) (by simp)
    lexes

def isBareWord (word : Text) : Bool := word.head?.any isNameStart && word.tail.all isWordPart

theorem lexes_bare {word rest : Text} {tokens : List Token} (bare : isBareWord word)
    (ends : Ends rest) (lexes : LexesTo rest tokens) :
    LexesTo (word ++ rest) (.word ⟨word, none⟩ :: tokens) := by
  cases word with
  | nil => cases bare
  | cons c more =>
    simp only [isBareWord, List.head?_cons, Option.any_some, List.tail_cons, Bool.and_eq_true,
      List.all_eq_true] at bare
    exact lexes_word more bare.1 bare.2 ends lexes

def PlainName (name : Text) : Prop := isBareWord name ∧ inCapitals name ∉ keywords

instance : DecidablePred PlainName := fun _ => inferInstanceAs (Decidable (_ ∧ _))

theorem lexes_equals {rest : Text} {tokens : List Token} (lexes : LexesTo rest tokens) :
    LexesTo ('=' :: ' ' :: rest) (.symbol "=" :: tokens) := by
  have read : tokenAt '=' (' ' :: rest) = some (.symbol "=", ' ' :: rest) := rfl
  exact lexes_token (by decide) (by decide) read (Nat.le_refl _) (lexes_blank (by decide) lexes)

theorem lexes_comma {rest : Text} {tokens : List Token} (lexes : LexesTo rest tokens) :
    LexesTo (',' :: rest) (.symbol "," :: tokens) :=
  lexes_token (by decide) (by decide) rfl (Nat.le_refl _) lexes

-- A period before a digit would begin a number instead.
theorem lexes_period {c : Char} {rest : Text} {tokens : List Token} (start : isNameStart c)
    (lexes : LexesTo (c :: rest) tokens) :
    LexesTo ('.' :: c :: rest) (.symbol "." :: tokens) := by
  have digit := name_start_digit start
  have point : '.'.isDigit = false := by decide
  have read : tokenAt '.' (c :: rest) = some (.symbol ".", c :: rest) := by
    simp [tokenAt, numberToken, digit, point]
  exact lexes_token (by decide) (by decide) read (Nat.le_refl _) lexes

theorem quoted_body_double (value : Text) {rest : Text} (ends : ∀ c ∈ rest.head?, c ≠ '\'') :
    quotedBody '\'' (Text.double '\'' value ++ '\'' :: rest) = some (value, rest) := by
  induction value with
  | nil =>
    cases rest with
    | nil => rfl
    | cons d rest =>
      have different := ends d rfl
      simp [Text.double, quotedBody, different]
  | cons c value ih =>
    by_cases quote : c = '\''
    · subst quote
      have doubled : Text.double '\'' ('\'' :: value) = '\'' :: '\'' :: Text.double '\'' value := by
        simp [Text.double]
      rw [doubled]
      simp [quotedBody, ih]
    · have kept : Text.double '\'' (c :: value) = c :: Text.double '\'' value := by
        simp [Text.double, quote]
      rw [kept]
      have more : Text.double '\'' value ++ '\'' :: rest ≠ [] := by simp
      obtain ⟨d, s, same⟩ := List.exists_cons_of_ne_nil more
      simp only [List.cons_append, same] at ih ⊢
      simp [quotedBody, quote, ih]

-- Whatever it holds, a string between apostrophes is one token once those inside are doubled.
theorem lexes_string (value : Text) {rest : Text} {tokens : List Token} (ends : Ends rest)
    (lexes : LexesTo rest tokens) :
    LexesTo ('\'' :: (Text.double '\'' value ++ '\'' :: rest)) (.string value :: tokens) := by
  have closed : ∀ c ∈ rest.head?, c ≠ '\'' := fun c head => (ends_unquoted (ends c head)).1
  have letter : '\''.isAlpha = false := by decide
  have read : tokenAt '\'' (Text.double '\'' value ++ '\'' :: rest) =
      some (.string value, rest) := by
    simp [tokenAt, letter, quoted_body_double value closed]
  have shorter : rest.length ≤ (Text.double '\'' value ++ '\'' :: rest).length := by
    rw [List.length_append, List.length_cons]
    omega
  exact lexes_token (by decide) (by decide) read shorter lexes

end TripleTable.Sql
