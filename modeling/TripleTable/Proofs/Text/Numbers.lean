import TripleTable.Text.Double
set_option autoImplicit false

/-!
Numbers read back from the text they are written as.
-/
namespace TripleTable.Text

def IsDigits (s : Text) : Prop := s ≠ [] ∧ ∀ c ∈ s, c.isDigit

theorem to_nat_digits {s : Text} (digits : IsDigits s) : toNat? s = some (digitsToNat s) := by
  obtain ⟨inhabited, each⟩ := digits
  simp [toNat?, inhabited, List.all_eq_true.mpr each]

theorem digits_of_to_nat {s : Text} {n : Nat} (read : toNat? s = some n) : IsDigits s := by
  unfold toNat? at read
  split at read
  · rename_i digital
    obtain ⟨inhabited, each⟩ := Bool.and_eq_true_iff.mp digital
    exact ⟨by simpa using inhabited, List.all_eq_true.mp each⟩
  · cases read

theorem of_nat_digit {n : Nat} {c : Char} (member : c ∈ ofNat n) : c.isDigit :=
  Nat.isDigit_of_mem_toDigits (by decide) (by decide) member

theorem of_nat_inhabited (n : Nat) : ofNat n ≠ [] := Nat.toDigits_ne_nil

theorem to_nat_of_nat (n : Nat) : toNat? (ofNat n) = some n := by
  have value : digitsToNat (ofNat n) = n := by
    rw [digitsToNat, ofNat, ← Nat.ofDigitChars_eq_foldl, Nat.ofDigitChars_ten_toDigits]
  rw [to_nat_digits ⟨of_nat_inhabited n, fun _ => of_nat_digit⟩, value]

theorem to_int_digits {s : Text} (digits : s.all Char.isDigit) :
    toInt? s = (toNat? s).map fun (n : Nat) => (n : Int) := by
  unfold toInt?
  split
  · simp at digits
  · simp at digits
  · rfl

theorem to_int_of_nat (n : Nat) : toInt? (ofNat n) = some (n : Int) := by
  rw [to_int_digits (List.all_eq_true.mpr fun _ => of_nat_digit), to_nat_of_nat]
  rfl

theorem to_int_of_int (p : Int) : toInt? (ofInt p) = some p := by
  cases p with
  | ofNat n => exact to_int_of_nat n
  | negSucc n =>
    rw [ofInt, toInt?, to_nat_of_nat]
    rfl

theorem sign_digits {s : Text} (digits : s.all Char.isDigit) : sign s = (false, s) := by
  unfold sign
  split
  · simp at digits
  · simp at digits
  · rfl

theorem to_double_digits {s : Text} (inhabited : s ≠ []) (digits : s.all Char.isDigit) :
    (toDouble? s).isSome := by
  have each := List.all_eq_true.mp digits
  have whole : (s ++ []).takeWhile Char.isDigit = s ++ [] := List.takeWhile_append_of_pos each
  have rest : (s ++ []).dropWhile Char.isDigit = [] := List.dropWhile_append_of_pos each
  rw [List.append_nil] at whole rest
  have magnitude : (magnitudeBits? s).isSome := by
    unfold magnitudeBits?
    simp only [whole, rest]
    split
    · rfl
    · split
      · rfl
      · simp [inhabited, exponent?]
  simp only [toDouble?, sign_digits digits, Option.isSome_map, magnitude]

end TripleTable.Text
