import TripleTable.Plan.Projection
import TripleTable.Proofs.Sparql.Writing
import TripleTable.Proofs.Text.Names
set_option autoImplicit false

/-!
Where a word stands first in a text that is known piece by piece, and which tokens such a text
falls into.
-/
namespace TripleTable.Plan
open Sparql (IsKeyword)

/-! ### The first occurrence of a word -/

section
variable {word front rest s : Text} {before : Option Char} {c w : Char}

-- A word is over before a character that it does not hold.
theorem begins_cut (front : Text) (closed : foldCase c ∉ word)
    (begins : beginsWithWord word (front ++ c :: rest)) :
    beginsWithWord word front ∧ beginsWithWord word (front ++ [c]) := by
  induction front generalizing word with
  | nil =>
    cases word with
    | nil => exact ⟨rfl, begins⟩
    | cons w word =>
      simp only [List.nil_append, beginsWithWord, Bool.and_eq_true, beq_iff_eq] at begins
      exact absurd (begins.1 ▸ List.mem_cons_self) closed
  | cons d front ih =>
    cases word with
    | nil => exact ⟨begins, begins⟩
    | cons w word =>
      simp only [List.cons_append, beginsWithWord, Bool.and_eq_true] at begins ⊢
      obtain ⟨cut, kept⟩ := ih (fun member => closed (List.mem_cons_of_mem w member)) begins.2
      exact ⟨⟨begins.1, cut⟩, begins.1, kept⟩

-- The character in front of what follows `front`.
def lastOr (before : Option Char) (front : Text) : Option Char := front.getLast?.or before

theorem last_or_cons (before : Option Char) (c : Char) (front : Text) :
    lastOr before (c :: front) = lastOr (some c) front := by
  rw [lastOr, lastOr, List.getLast?_cons]
  cases front.getLast? <;> rfl

theorem find_here (opens : opensWord before) (begins : beginsWithWord word (c :: s)) :
    findWord? word before (c :: s) = some 0 := by
  rw [findWord?, opens, begins]
  rfl

-- No word begins inside a run of word characters.
theorem find_inside (shut : opensWord before = false) (run : ∀ c ∈ s, isWordChar c) :
    findWord? word before s = none := by
  induction s generalizing before with
  | nil => rfl
  | cons c s ih =>
    have later : opensWord (some c) = false := by simp [opensWord, run c (by simp)]
    rw [findWord?, shut, Bool.false_and, if_neg Bool.false_ne_true,
      ih later fun d member => run d (by simp [member])]
    rfl

-- A text without the word, closed off by a character that the word does not hold, is passed over.
theorem find_behind (absent : findWord? word before front = none) (closed : foldCase c ∉ word)
    (rest : Text) : findWord? word before (front ++ c :: rest) =
      (findWord? word (lastOr before front) (c :: rest)).map (· + front.length) := by
  induction front generalizing before with
  | nil => simp [lastOr]
  | cons d front ih =>
    rw [findWord?] at absent
    split at absent
    · cases absent
    · rename_i no_word
      have later := ih (Option.map_eq_none_iff.mp absent)
      have passed : ¬(opensWord before && beginsWithWord word (d :: (front ++ c :: rest))) := by
        intro found
        simp only [Bool.and_eq_true] at found no_word
        exact no_word ⟨found.1, (begins_cut (d :: front) closed found.2).1⟩
      rw [List.cons_append, findWord?, if_neg passed, later, last_or_cons, Option.map_map]
      rfl

-- The same when the closing character belongs to the text that is known to be without the word.
theorem find_past (absent : findWord? word before (front ++ [c]) = none)
    (closed : foldCase c ∉ word) (inhabited : word ≠ []) (rest : Text) :
    findWord? word before (front ++ c :: rest) =
      (findWord? word (some c) rest).map (· + (front.length + 1)) := by
  induction front generalizing before with
  | nil =>
    cases word with
    | nil => exact absurd rfl inhabited
    | cons w word =>
      have other : (foldCase c == w) = false := by
        rw [beq_eq_false_iff_ne]
        rintro rfl
        exact closed List.mem_cons_self
      rw [List.nil_append, findWord?, beginsWithWord, other, Bool.false_and, Bool.and_false,
        if_neg Bool.false_ne_true]
      rfl
  | cons d front ih =>
    rw [List.cons_append, findWord?] at absent
    split at absent
    · cases absent
    · rename_i no_word
      have later := ih (Option.map_eq_none_iff.mp absent)
      have passed : ¬(opensWord before && beginsWithWord word (d :: (front ++ c :: rest))) := by
        intro found
        simp only [Bool.and_eq_true] at found no_word
        exact no_word ⟨found.1, (begins_cut (d :: front) closed found.2).2⟩
      rw [List.cons_append, findWord?, if_neg passed, later, Option.map_map]
      rfl

theorem find_skip (before : Option Char) (starts : word.head? = some w)
    (others : ∀ c ∈ front, foldCase c ≠ w) (s : Text) :
    findWord? word before (front ++ s) =
      (findWord? word (lastOr before front) s).map (· + front.length) := by
  cases word with
  | nil => cases starts
  | cons v word =>
    cases starts
    induction front generalizing before with
    | nil => simp [lastOr]
    | cons c front ih =>
      have other : (foldCase c == w) = false := by simpa using others c (by simp)
      rw [List.cons_append, findWord?, beginsWithWord, other, Bool.false_and, Bool.and_false,
        if_neg Bool.false_ne_true, ih _ fun d member => others d (by simp [member]), last_or_cons,
        Option.map_map]
      rfl

theorem find_before {other : Option Char} (same : opensWord before = opensWord other) (s : Text) :
    findWord? word before s = findWord? word other s := by
  cases s with
  | nil => rfl
  | cons c s => rw [findWord?, findWord?, same]

theorem fold_lower (lower : c.toLower = w) (ascii : isAscii w) : foldCase c = w := by
  have kelvin_sign : c.toNat ≠ 0x212a := by
    intro equal
    have whole : c = Char.ofNat 0x212a := Char.toNat_inj.mp equal
    rw [← lower, whole] at ascii
    exact absurd ascii (by decide)
  have long_s : c.toNat ≠ 0x17f := by
    intro equal
    have whole : c = Char.ofNat 0x17f := Char.toNat_inj.mp equal
    rw [← lower, whole] at ascii
    exact absurd ascii (by decide)
  rw [foldCase, if_neg long_s, if_neg kelvin_sign, lower]

theorem keyword_folds {token : Text} (ascii : (Text.asciiLower word).all isAscii)
    (same : IsKeyword word token) : token.map foldCase = Text.asciiLower word := by
  rw [← same]
  apply List.map_congr_left
  intro c member
  have lower : c.toLower ∈ Text.asciiLower word := by
    rw [← same]
    exact List.mem_map_of_mem member
  exact fold_lower rfl (List.all_eq_true.mp ascii _ lower)

theorem keyword_fold_other {token : Text} (ascii : (Text.asciiLower word).all isAscii)
    (same : IsKeyword word token) (absent : w ∉ Text.asciiLower word) :
    ∀ c ∈ token, foldCase c ≠ w := by
  rintro c member rfl
  rw [← keyword_folds ascii same] at absent
  exact absent (List.mem_map_of_mem member)

theorem begins_word (token : Text) (ends : ∀ c ∈ rest.head?, isWordChar c = false) :
    beginsWithWord (token.map foldCase) (token ++ rest) := by
  induction token with
  | nil =>
    cases rest with
    | nil => rfl
    | cons c rest => simp [beginsWithWord, ends c rfl]
  | cons c token ih => simpa [beginsWithWord] using ih

end

/-! ### Tokens between separators -/

section
variable {p : Char → Bool} {token s : Text} {c : Char}

theorem tokens_on_separator (separates : p c) (s : Text) :
    Text.tokensOn p (c :: s) = Text.tokensOn p s := by
  simp [Text.tokensOn, Text.splitOn, separates]

theorem tokens_on_all (inhabited : token ≠ []) (solid : ∀ c ∈ token, p c = false) :
    Text.tokensOn p token = [token] := by
  have whole : List.splitOnP p token = [token] :=
    List.splitOnP_eq_singleton solid
  simp [Text.tokensOn, Text.split_library, whole, inhabited]

theorem tokens_on_token (inhabited : token ≠ []) (solid : ∀ c ∈ token, p c = false)
    (separates : p c) (s : Text) :
    Text.tokensOn p (token ++ c :: s) = token :: Text.tokensOn p s := by
  have split : List.splitOnP p (token ++ c :: s) = token :: List.splitOnP p s :=
    List.splitOnP_append_cons_of_forall_mem solid c separates s
  simp [Text.tokensOn, Text.split_library, split, inhabited]

end
end TripleTable.Plan
