import Mathlib.Data.List.Induction
import Mathlib.Data.List.TakeWhile
import Mathlib.Data.Nat.Digits.Defs
import Mathlib.Data.Rat.Defs
import TripleTable.Proofs.Text.Numbers
import TripleTable.Sql.Token
set_option autoImplicit false

/-!
The spelling of number tokens and the values they stand for. None has a sign in front of it.
-/
namespace TripleTable.Sql
open Text (IsDigits)

-- The value of digits, of which the last one counts the units.
def digitsValue (s : Text) : ℕ := Nat.ofDigits 10 (s.reverse.map fun c => c.toNat - '0'.toNat)

-- A power of ten as it is written behind a number, and its exponent.
inductive Power : Text → ℤ → Prop
  | absent : Power [] 0
  | plain {mark : Char} {digits : Text} : mark = 'e' ∨ mark = 'E' → IsDigits digits →
      Power (mark :: digits) (digitsValue digits)
  | plus {mark : Char} {digits : Text} : mark = 'e' ∨ mark = 'E' → IsDigits digits →
      Power (mark :: '+' :: digits) (digitsValue digits)
  | minus {mark : Char} {digits : Text} : mark = 'e' ∨ mark = 'E' → IsDigits digits →
      Power (mark :: '-' :: digits) (-digitsValue digits)

-- A number as it is written, with or without a period, and its value.
inductive Numeral : Text → ℚ → Prop
  | whole {digits power : Text} {e : ℤ} : IsDigits digits → Power power e →
      Numeral (digits ++ power) (digitsValue digits * 10 ^ e)
  | decimal {digits fraction power : Text} {e : ℤ} : IsDigits (digits ++ fraction) →
      Power power e → Numeral (digits ++ '.' :: (fraction ++ power))
        (digitsValue (digits ++ fraction) * 10 ^ (e - fraction.length))

/-! ### Numerals of digits only -/

theorem digits_value (s : Text) : Text.digitsToNat s = digitsValue s := by
  induction s using List.reverseRecOn with
  | nil => rfl
  | append_singleton s c ih =>
    have last : digitsValue (s ++ [c]) = c.toNat - '0'.toNat + 10 * digitsValue s := by
      simp [digitsValue, Nat.ofDigits_cons]
    rw [last, Text.digitsToNat, List.foldl_append, ← Text.digitsToNat, ih]
    exact Nat.add_comm _ _

theorem digits_numeral {s : Text} (digits : IsDigits s) : Numeral s (digitsValue s) := by
  simpa using Numeral.whole digits .absent

theorem power_digits {power : Text} {e : ℤ} (written : Power power e)
    (each : ∀ c ∈ power, c.isDigit) : power = [] ∧ e = 0 := by
  have unmarked : ∀ mark rest, mark = 'e' ∨ mark = 'E' → power = mark :: rest → False := by
    rintro mark rest letter rfl
    have digit := each mark List.mem_cons_self
    rcases letter with rfl | rfl
    · exact absurd digit (by decide)
    · exact absurd digit (by decide)
  cases written with
  | absent => exact ⟨rfl, rfl⟩
  | plain letter _ => exact (unmarked _ _ letter rfl).elim
  | plus letter _ => exact (unmarked _ _ letter rfl).elim
  | minus letter _ => exact (unmarked _ _ letter rfl).elim

theorem numeral_digits {s : Text} {q : ℚ} (numeral : Numeral s q) (each : ∀ c ∈ s, c.isDigit) :
    IsDigits s ∧ q = digitsValue s := by
  cases numeral with
  | whole digits power =>
    obtain ⟨rfl, rfl⟩ := power_digits power fun c member => each c (List.mem_append_right _ member)
    rw [List.append_nil, zpow_zero, mul_one]
    exact ⟨digits, rfl⟩
  | decimal _ _ => exact absurd (each '.' (by simp)) (by decide)

theorem numeral_first {s : Text} {q : ℚ} (numeral : Numeral s q) :
    ∃ c rest, s = c :: rest ∧ (c.isDigit ∨ c = '.') := by
  cases numeral with
  | @whole digits power _ whole _ =>
    cases digits with
    | nil => exact absurd rfl whole.1
    | cons c rest => exact ⟨c, rest ++ power, rfl, .inl (whole.2 c List.mem_cons_self)⟩
  | @decimal digits fraction power _ whole _ =>
    cases digits with
    | nil => exact ⟨'.', fraction ++ power, rfl, .inr rfl⟩
    | cons c rest => exact ⟨c, _, rfl, .inl (whole.2 c List.mem_cons_self)⟩

theorem numeral_unsigned {s : Text} {q : ℚ} (numeral : Numeral s q) :
    Text.toInt? s = (Text.toNat? s).map fun (n : Nat) => (n : Int) := by
  obtain ⟨c, rest, rfl, first⟩ := numeral_first numeral
  unfold Text.toInt?
  split
  · rename_i digits begins
    obtain ⟨rfl, -⟩ := List.cons.inj begins
    exact absurd first (by decide)
  · rename_i digits begins
    obtain ⟨rfl, -⟩ := List.cons.inj begins
    exact absurd first (by decide)
  · rfl

/-! ### Number tokens -/

theorem digits_taken (s : Text) : ∀ c ∈ s.takeWhile Char.isDigit, c.isDigit := fun _ member =>
  List.mem_takeWhile_imp member

theorem digits_stop {s : Text} : (s.dropWhile Char.isDigit).takeWhile Char.isDigit = [] := by
  induction s with
  | nil => rfl
  | cons c s ih =>
    by_cases digit : c.isDigit
    · rwa [List.dropWhile_cons_of_pos digit]
    · rw [List.dropWhile_cons_of_neg digit, List.takeWhile_cons_of_neg digit]

theorem power_if_digits {s written : Text} {e : ℤ}
    (power : IsDigits (s.takeWhile Char.isDigit) → Power written e) :
    ∃ e, Power (if (s.takeWhile Char.isDigit).isEmpty then [] else written) e := by
  by_cases empty : (s.takeWhile Char.isDigit).isEmpty
  · rw [if_pos empty]
    exact ⟨0, .absent⟩
  · rw [if_neg empty]
    exact ⟨e, power ⟨by simpa using empty, digits_taken s⟩⟩

theorem exponent_power (s : Text) : ∃ e, Power (exponent s) e := by
  unfold exponent
  split
  · rename_i c rest
    by_cases mark : c = 'e' ∨ c = 'E'
    · rw [if_pos mark]
      split
      · rename_i d more
        by_cases sign : d = '+' ∨ d = '-'
        · rw [if_pos sign]
          rcases sign with rfl | rfl
          · exact power_if_digits fun digits => .plus mark digits
          · exact power_if_digits fun digits => .minus mark digits
        · rw [if_neg sign]
          exact power_if_digits fun digits => .plain mark digits
      · exact ⟨0, .absent⟩
    · rw [if_neg mark]
      exact ⟨0, .absent⟩
  · exact ⟨0, .absent⟩

-- Behind a run of digits stands no digit, so without a period there is no fraction.
theorem number_token_numeral {s rest digits : Text} {long : Bool}
    (begins : s.takeWhile Char.isDigit ≠ [] ∨ (s.dropWhile Char.isDigit).head? = some '.')
    (read : numberToken s = (.number digits long, rest)) : ∃ q, Numeral digits q := by
  have whole_digits := digits_taken s
  have stop := digits_stop (s := s)
  unfold numberToken at read
  generalize s.takeWhile Char.isDigit = whole at *
  generalize s.dropWhile Char.isDigit = behind at *
  dsimp only at read
  by_cases hex : whole = ['0'] ∧ behind.head? = some 'x'
  · rw [if_pos hex] at read
    cases read
  · rw [if_neg hex] at read
    by_cases period : behind.head? = some '.'
    · obtain ⟨more, rfl⟩ := List.head?_eq_some_iff.mp period
      simp only [List.head?_cons, if_true, List.length_singleton, List.drop_succ_cons,
        List.drop_zero] at read
      by_cases lone : whole ++ ['.'] ++ more.takeWhile Char.isDigit = ['.']
      · rw [if_pos lone] at read
        cases read
      · rw [if_neg lone] at read
        obtain ⟨rfl, -⟩ := Token.number.inj (Prod.mk.inj read).1
        obtain ⟨e, power⟩ := exponent_power (more.dropWhile Char.isDigit)
        have written : IsDigits (whole ++ more.takeWhile Char.isDigit) := by
          refine ⟨fun empty => ?_, List.forall_mem_append.mpr ⟨whole_digits, digits_taken _⟩⟩
          obtain ⟨no_whole, no_fraction⟩ := List.append_eq_nil_iff.mp empty
          rw [no_whole, no_fraction] at lone
          exact lone rfl
        exact ⟨_, by simpa using Numeral.decimal written power⟩
    · have inhabited := begins.resolve_right period
      simp only [if_neg period, List.length_nil, List.drop_zero, stop, List.append_nil] at read
      by_cases lone : whole = ['.']
      · rw [if_pos lone] at read
        cases read
      · rw [if_neg lone] at read
        obtain ⟨rfl, -⟩ := Token.number.inj (Prod.mk.inj read).1
        obtain ⟨e, power⟩ := exponent_power (behind.dropWhile Char.isDigit)
        exact ⟨_, .whole ⟨inhabited, whole_digits⟩ power⟩

theorem letter_literal_other {c : Char} {s rest digits : Text} {long : Bool} :
    letterLiteral? c s ≠ some (some (.number digits long, rest)) := by
  unfold letterLiteral?
  split <;> simp [introduced]

theorem word_token_other {c : Char} {first s rest digits : Text} {long : Bool}
    (other : (c.isDigit || c == '.') = false) :
    wordToken (c :: first) s ≠ (.number digits long, rest) := by
  simp [wordToken, other]

theorem dollar_token_other {s rest digits : Text} {long : Bool} :
    dollarToken s ≠ some (.number digits long, rest) := by
  unfold dollarToken
  dsimp only
  split <;> simp

theorem number_begins {c : Char} (first : c.isDigit || c == '.') (s : Text) :
    (c :: s).takeWhile Char.isDigit ≠ [] ∨ ((c :: s).dropWhile Char.isDigit).head? = some '.' := by
  by_cases digit : c.isDigit
  · rw [List.takeWhile_cons_of_pos digit]
    exact .inl (List.cons_ne_nil _ _)
  · have period : c = '.' := by simpa [digit] using first
    rw [List.dropWhile_cons_of_neg digit, period]
    exact .inr rfl

theorem token_at_number {c : Char} {s rest digits : Text} {long : Bool}
    (first : c.isDigit || c == '.') (read : tokenAt c s = some (.number digits long, rest)) :
    numberToken (c :: s) = (.number digits long, rest) := by
  unfold tokenAt at read
  grind [letter_literal_other, Option.map_eq_some_iff]

-- Strings, names, operators, words and placeholders begin with other characters than numbers.
theorem token_at_begins {c : Char} {s rest digits : Text} {long : Bool}
    (read : tokenAt c s = some (.number digits long, rest)) : c.isDigit || c == '.' := by
  cases first : c.isDigit || c == '.' with
  | true => rfl
  | false =>
    have letter : letterLiteral? c s ≠ some (some (.number digits long, rest)) :=
      letter_literal_other
    have word : ∀ more t, wordToken (c :: more) t ≠ (.number digits long, rest) := fun _ _ =>
      word_token_other first
    have dollar : dollarToken s ≠ some (.number digits long, rest) := dollar_token_other
    unfold tokenAt at read
    by_cases quote : c = '\'' ∨ c = '"' ∨ c = '\x60'
    · grind [Option.map_eq_some_iff]
    · have single : c ≠ '\'' := fun same => quote (.inl same)
      have double : ¬ (c = '"' ∨ c = '\x60') := fun same => quote (.inr same)
      simp only [if_neg single, if_neg double, first, Bool.false_eq_true, if_false] at read
      grind

theorem token_at_numeral {c : Char} {s rest digits : Text} {long : Bool}
    (read : tokenAt c s = some (.number digits long, rest)) : ∃ q, Numeral digits q := by
  have first := token_at_begins read
  exact number_token_numeral (number_begins first s) (token_at_number first read)

-- By induction on the characters that are left: a token is read, or none is.
theorem tokens_numeral {n : Nat} {s digits : Text} {long : Bool} {tokens : List Token}
    (read : tokensUpTo n s = some tokens) (member : .number digits long ∈ tokens) :
    ∃ q, Numeral digits q := by
  induction n generalizing s tokens with
  | zero =>
    cases s with
    | nil =>
      obtain rfl := Option.some.inj read
      cases member
    | cons c s => cases read
  | succ n ih =>
    cases s with
    | nil =>
      obtain rfl := Option.some.inj read
      cases member
    | cons c s =>
      rw [tokensUpTo] at read
      split at read
      · exact ih read member
      · split at read
        · exact ih read member
        · split at read
          · obtain ⟨more, -, behind⟩ := Option.bind_eq_some_iff.mp read
            exact ih behind member
          · obtain ⟨⟨token, rest⟩, first, others⟩ := Option.bind_eq_some_iff.mp read
            obtain ⟨later, behind, all⟩ := Option.bind_eq_some_iff.mp others
            obtain rfl := Option.some.inj all
            rcases List.mem_cons.mp member with rfl | inside
            · exact token_at_numeral first
            · exact ih behind inside

end TripleTable.Sql
