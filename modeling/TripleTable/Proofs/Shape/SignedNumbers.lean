import Mathlib.Data.Rat.Cast.Order
import Mathlib.Tactic.NormNum
import TripleTable.Proofs.Sql.Numerals
import TripleTable.Shape.Walk
set_option autoImplicit false

/-!
Numbers behind signs and in parentheses, read as integers. A number token has no sign of its own,
so the integers that are read lie as far below zero as above it and each has its opposite.
-/
namespace TripleTable.Shape
open Sql
open Text (IsDigits)

-- A number behind signs and in parentheses, and what they make of its value.
inductive Signed (digits : Text) (q : ℚ) : Expr → ℚ → Prop
  | number (long : Bool) : Signed digits q (.number digits long) q
  | minus {e : Expr} {v : ℚ} : Signed digits q e v → Signed digits q (.unary .minus e) (-v)
  | plus {e : Expr} {v : ℚ} : Signed digits q e v → Signed digits q (.unary .plus e) v
  | nested {e : Expr} {v : ℚ} : Signed digits q e v → Signed digits q (.nested e) v

-- The integers that are negated while an expression is read.
def negated : Expr → List ℤ
  | .unary .minus operand =>
    match literal operand with
    | .ok (.integer n) => n :: negated operand
    | _ => negated operand
  | .unary .plus operand => negated operand
  | .nested inner => negated inner
  | _ => []

/-! ### The number itself -/

-- Digits are an integer up to the greatest of 64 bits, and a binary64 number beyond it.
theorem number_digits {s : Text} {q : ℚ} (numeral : Numeral s q) (digits : IsDigits s) :
    number? s = if digitsValue s ≤ 2 ^ 63 - 1 then some (.integer (digitsValue s))
      else (Text.toDouble? s).map .float := by
  have range : -integerBound ≤ (digitsValue s : ℤ) ∧ (digitsValue s : ℤ) < integerBound ↔
      digitsValue s ≤ 2 ^ 63 - 1 := by
    unfold integerBound
    omega
  rw [number?, numeral_unsigned numeral, Text.to_nat_digits digits, digits_value, Option.map_some]
  simp only [range]

theorem number_integer {s : Text} {q : ℚ} (numeral : Numeral s q) {n : ℤ}
    (read : number? s = some (.integer n)) : (n : ℚ) = q ∧ n.natAbs ≤ 2 ^ 63 - 1 := by
  have digits : IsDigits s := by
    cases whole : Text.toNat? s with
    | none => simp [number?, numeral_unsigned numeral, whole] at read
    | some m => exact Text.digits_of_to_nat whole
  rw [number_digits numeral digits] at read
  split at read
  · rename_i small
    obtain rfl := Literal.integer.inj (Option.some.inj read)
    rw [(numeral_digits numeral digits.2).2]
    exact ⟨Int.cast_natCast _, small⟩
  · simp at read

theorem greatest_cast : (2 ^ 63 - 1 : ℚ) = ((2 ^ 63 - 1 : ℕ) : ℚ) := by norm_num

theorem number_small {s : Text} {q : ℚ} (numeral : Numeral s q) (each : ∀ c ∈ s, c.isDigit)
    (small : q ≤ 2 ^ 63 - 1) : ∃ n, number? s = some (.integer n) := by
  obtain ⟨digits, rfl⟩ := numeral_digits numeral each
  rw [greatest_cast, Nat.cast_le] at small
  exact ⟨digitsValue s, by rw [number_digits numeral digits, if_pos small]⟩

theorem number_great {s : Text} {q : ℚ} (numeral : Numeral s q) (each : ∀ c ∈ s, c.isDigit)
    (great : 2 ^ 63 - 1 < q) : ∃ x, number? s = some (.float x) := by
  obtain ⟨digits, rfl⟩ := numeral_digits numeral each
  rw [greatest_cast, Nat.cast_lt] at great
  obtain ⟨x, double⟩ := Option.isSome_iff_exists.mp
    (Text.to_double_digits digits.1 (List.all_eq_true.mpr each))
  refine ⟨x, ?_⟩
  rw [number_digits numeral digits, if_neg (Nat.not_le.mpr great), double, Option.map_some]

/-! ### Signs and parentheses -/

theorem literal_number {digits : Text} {long : Bool} {value : Literal} :
    literal (.number digits long) = .ok value ↔ number? digits = some value := by
  rw [literal]
  cases number? digits with
  | none => simp
  | some other => simp

theorem literal_minus {e : Expr} {n : ℤ} :
    literal (.unary .minus e) = .ok (.integer n) ↔ literal e = .ok (.integer (-n)) := by
  rw [literal]
  cases literal e with
  | error defect => exact iff_of_false nofun nofun
  | ok value =>
    cases value with
    | integer m =>
      change Except.ok (Literal.integer (-m)) = _ ↔ _
      simp only [Except.ok.injEq, Literal.integer.injEq]
      omega
    | float x => exact iff_of_false nofun nofun
    | string text => exact iff_of_false nofun nofun
    | identifier text => exact iff_of_false nofun nofun

section
variable {digits : Text} {q v : ℚ} {e : Expr}

theorem signed_exact (numeral : Numeral digits q) (signed : Signed digits q e v) {n : ℤ}
    (read : literal e = .ok (.integer n)) : (n : ℚ) = v ∧ n.natAbs ≤ 2 ^ 63 - 1 := by
  induction signed generalizing n with
  | number long => exact number_integer numeral (literal_number.mp read)
  | @minus e v _ ih =>
    obtain ⟨value, small⟩ := ih (literal_minus.mp read)
    rw [Int.cast_neg] at value
    rw [Int.natAbs_neg] at small
    exact ⟨neg_eq_iff_eq_neg.mp value, small⟩
  | plus _ ih => exact ih read
  | nested _ ih => exact ih read

theorem signed_small (numeral : Numeral digits q) (signed : Signed digits q e v)
    (each : ∀ c ∈ digits, c.isDigit) (small : q ≤ 2 ^ 63 - 1) :
    ∃ n, literal e = .ok (.integer n) := by
  induction signed with
  | number long =>
    obtain ⟨n, read⟩ := number_small numeral each small
    exact ⟨n, literal_number.mpr read⟩
  | minus _ ih =>
    obtain ⟨n, read⟩ := ih
    exact ⟨-n, literal_minus.mpr (by rw [neg_neg, read])⟩
  | plus _ ih => exact ih
  | nested _ ih => exact ih

theorem signed_great (numeral : Numeral digits q) (signed : Signed digits q e v)
    (each : ∀ c ∈ digits, c.isDigit) (great : 2 ^ 63 - 1 < q) :
    ∃ x, literal e = .ok (.float x) := by
  induction signed with
  | number long =>
    obtain ⟨x, read⟩ := number_great numeral each great
    exact ⟨x, literal_number.mpr read⟩
  | minus _ ih =>
    obtain ⟨x, read⟩ := ih
    exact ⟨-x, by rw [literal, read]; rfl⟩
  | plus _ ih => exact ih
  | nested _ ih => exact ih

-- What a sign stands before is a number behind signs again.
theorem negated_small (numeral : Numeral digits q) (signed : Signed digits q e v) :
    ∀ n ∈ negated e, n.natAbs ≤ 2 ^ 63 - 1 := by
  induction signed with
  | number long => exact fun _ member => absurd member List.not_mem_nil
  | @minus e v inner ih =>
    rw [negated]
    split
    · rename_i n read
      exact List.forall_mem_cons.mpr ⟨(signed_exact numeral inner read).2, ih⟩
    · exact ih
  | plus _ ih => exact ih
  | nested _ ih => exact ih

-- An integer that is read is the value of the expression and lies in the range of 64 bits, as the
-- opposite of each integer on the way does. What is written in digits is read as an integer if
-- its value is one, and what a text holds as numbers is written without a sign.
theorem literal_exact (numeral : Numeral digits q) (signed : Signed digits q e v) :
    (∀ n, literal e = .ok (.integer n) → (n : ℚ) = v ∧ n.natAbs ≤ 2 ^ 63 - 1) ∧
    (∀ n ∈ negated e, -2 ^ 63 ≤ -n ∧ -n < 2 ^ 63) ∧
    ((∀ c ∈ digits, c.isDigit) →
      (q ≤ 2 ^ 63 - 1 → ∃ n, literal e = .ok (.integer n)) ∧
      (2 ^ 63 - 1 < q → ∃ x, literal e = .ok (.float x))) ∧
    ∀ s tokens token long, tokens? s = some tokens → .number token long ∈ tokens →
      ∃ value, Numeral token value := by
  refine ⟨fun n => signed_exact numeral signed, fun n member => ?_, fun each => ⟨?_, ?_⟩, ?_⟩
  · have small := negated_small numeral signed n member
    omega
  · exact signed_small numeral signed each
  · exact signed_great numeral signed each
  · exact fun s tokens token long => tokens_numeral

end

def greatestDigits : Text := "9223372036854775807"

-- The greatest integer behind signs, in which its opposite is negated again.
def leastInteger : Expr :=
  .unary .minus (.nested (.unary .minus (.unary .plus (.nested
    (.unary .minus (.number greatestDigits false))))))

theorem least_integer_read :
    Numeral greatestDigits (2 ^ 63 - 1) ∧
      Signed greatestDigits (2 ^ 63 - 1) leastInteger (-(2 ^ 63 - 1)) ∧
      literal leastInteger = .ok (.integer (-9223372036854775807)) ∧
      -9223372036854775807 ∈ negated leastInteger ∧
      -(-9223372036854775807) < (2 ^ 63 : ℤ) ∧
      tokens? greatestDigits = some [.number greatestDigits false] := by
  have each : greatestDigits.all Char.isDigit := by decide +kernel
  have digits : IsDigits greatestDigits := ⟨by decide, List.all_eq_true.mp each⟩
  have value : digitsValue greatestDigits = 2 ^ 63 - 1 := by decide +kernel
  have numeral : Numeral greatestDigits (2 ^ 63 - 1) := by
    have written := digits_numeral digits
    rwa [value, ← greatest_cast] at written
  have signed : Signed greatestDigits (2 ^ 63 - 1) leastInteger (-(2 ^ 63 - 1)) := by
    have three : Signed greatestDigits (2 ^ 63 - 1) leastInteger (- - -(2 ^ 63 - 1)) :=
      .minus (.nested (.minus (.plus (.nested (.minus (.number false))))))
    rwa [neg_neg] at three
  have member : -9223372036854775807 ∈ negated leastInteger := by decide +kernel
  have token : tokens? greatestDigits = some [.number greatestDigits false] := by decide +kernel
  obtain ⟨exact, opposite, whole, -⟩ := literal_exact numeral signed
  obtain ⟨n, read⟩ := (whole digits.2).1 (le_refl _)
  obtain rfl : n = -9223372036854775807 := by
    have value := (exact n read).1
    norm_num at value
    exact_mod_cast value
  exact ⟨numeral, signed, read, member, (opposite _ member).2, token⟩

end TripleTable.Shape
