import TripleTable.Text.CharClass
set_option autoImplicit false

/-!
How the character classes lie to each other: the ranges of their tables are apart where two classes
have no character in common. A run of one class ends where a character of another one stands.
-/
namespace TripleTable

-- A property of the characters of a short list, tested one by one.
theorem each_char {chars : List Char} {P : Char → Prop} [DecidablePred P]
    (all : chars.all fun c => decide (P c)) : ∀ c ∈ chars, P c := by
  simpa using all

section
variable {p : Char → Bool} {front rest : List Char}

theorem stops_run (stops : ∀ c ∈ rest.head?, p c = false) :
    rest.takeWhile p = [] ∧ rest.dropWhile p = rest := by
  cases rest with
  | nil => exact ⟨rfl, rfl⟩
  | cons c rest => simp [stops c rfl]

theorem run_exact (all : ∀ c ∈ front, p c) (stops : ∀ c ∈ rest.head?, p c = false) :
    (front ++ rest).takeWhile p = front ∧ (front ++ rest).dropWhile p = rest := by
  rw [List.takeWhile_append_of_pos all, List.dropWhile_append_of_pos all, (stops_run stops).1,
    (stops_run stops).2, List.append_nil]
  exact ⟨rfl, rfl⟩

end

def RangesApart (left right : List (Nat × Nat)) : Prop :=
  ∀ l ∈ left, ∀ r ∈ right, l.2 < r.1 ∨ r.2 < l.1

theorem covers_apart {left right : List (Nat × Nat)} (apart : RangesApart left right) {n : Nat}
    (covered : CharTable.covers left n) : CharTable.covers right n = false := by
  obtain ⟨l, here, bounds⟩ := List.any_eq_true.mp covered
  rw [CharTable.covers, List.any_eq_false]
  intro r there
  have between := apart l here r there
  simp only [Bool.and_eq_true, decide_eq_true_eq] at bounds ⊢
  omega

theorem blank_not_alphabetic : RangesApart CharTable.blank CharTable.alphabetic := by
  unfold RangesApart
  decide +kernel

theorem blank_not_digit : RangesApart CharTable.blank CharTable.decimalDigit := by
  unfold RangesApart
  decide +kernel

theorem blank_not_number : RangesApart CharTable.blank CharTable.otherNumber := by
  unfold RangesApart
  decide +kernel

theorem blank_not_mark : RangesApart CharTable.blank CharTable.mark := by
  unfold RangesApart
  decide +kernel

theorem blank_not_connector : RangesApart CharTable.blank CharTable.connector := by
  unfold RangesApart
  decide +kernel

theorem alpha_bounds {c : Char} (alpha : c.isAlpha) : 65 ≤ c.toNat ∧ c.toNat ≤ 122 := by
  have upper_bounds : c.isUpper → 65 ≤ c.toNat ∧ c.toNat ≤ 90 := by
    intro upper
    obtain ⟨low, high⟩ := of_decide_eq_true upper
    exact ⟨UInt32.le_iff_toNat_le.mp low, UInt32.le_iff_toNat_le.mp high⟩
  have lower_bounds : c.isLower → 97 ≤ c.toNat ∧ c.toNat ≤ 122 := by
    intro lower
    obtain ⟨low, high⟩ := Bool.and_eq_true_iff.mp lower
    exact ⟨UInt32.le_iff_toNat_le.mp (of_decide_eq_true low),
      UInt32.le_iff_toNat_le.mp (of_decide_eq_true high)⟩
  rcases Bool.or_eq_true_iff.mp alpha with upper | lower
  · have bounds := upper_bounds upper
    omega
  · have bounds := lower_bounds lower
    omega

theorem digit_bounds {c : Char} (digit : c.isDigit) : 48 ≤ c.toNat ∧ c.toNat ≤ 57 := by
  simp only [Char.isDigit, Bool.and_eq_true, decide_eq_true_eq, ge_iff_le,
    UInt32.le_iff_toNat_le] at digit
  simpa using digit

theorem alphanum_bounds {c : Char} (alphanum : c.isAlphanum) : 48 ≤ c.toNat ∧ c.toNat ≤ 122 := by
  simp only [Char.isAlphanum, Bool.or_eq_true] at alphanum
  rcases alphanum with alpha | digit
  · have bounds := alpha_bounds alpha
    omega
  · have bounds := digit_bounds digit
    omega

theorem alphanumeric_not_blank {c : Char} (alphanumeric : isAlphanumeric c) :
    isBlank c = false := by
  simp only [isAlphanumeric, Bool.or_eq_true, Bool.and_eq_true] at alphanumeric
  cases blank : isBlank c with
  | false => rfl
  | true =>
    simp only [isBlank, Bool.or_eq_true, Bool.and_eq_true, beq_iff_eq, decide_eq_true_eq]
      at blank
    rcases alphanumeric with alphanum | ⟨wide, listed⟩
    · have bounds := alphanum_bounds alphanum
      rcases blank with (rfl | low) | ⟨wide, _⟩
      · cases alphanum
      · omega
      · simp only [isAscii, Bool.not_eq_true', decide_eq_false_iff_not] at wide
        omega
    · simp only [isAscii, Bool.not_eq_true', decide_eq_false_iff_not] at wide
      rcases blank with (rfl | low) | ⟨_, covered⟩
      · exact absurd (by decide) wide
      · omega
      · rw [covers_apart blank_not_alphabetic covered, covers_apart blank_not_digit covered,
          covers_apart blank_not_number covered] at listed
        simp at listed

theorem word_not_blank {c : Char} (word : isWordChar c) : isBlank c = false := by
  simp only [isWordChar, Bool.or_eq_true, Bool.and_eq_true, beq_iff_eq] at word
  rcases word with (alphanum | rfl) | ⟨⟨wide, -⟩, listed⟩
  · exact alphanumeric_not_blank (isAlphanumeric_of_isAlphanum alphanum)
  · decide
  · cases blank : isBlank c with
    | false => rfl
    | true =>
      simp only [isBlank, isAscii, Bool.or_eq_true, Bool.and_eq_true, beq_iff_eq,
        decide_eq_true_eq, Bool.not_eq_true', decide_eq_false_iff_not] at blank wide
      rcases blank with (rfl | low) | ⟨-, covered⟩
      · exact absurd (by decide) wide
      · omega
      · rw [covers_apart blank_not_alphabetic covered, covers_apart blank_not_mark covered,
          covers_apart blank_not_digit covered, covers_apart blank_not_connector covered] at listed
        simp at listed

end TripleTable
