import Mathlib.Data.List.DropRight
import Mathlib.Data.List.TakeWhile
import TripleTable.Text.Basic
set_option autoImplicit false

/-!
Trimming of a whole text and of its lines. Trimming the lines of a text drops blanks before line
feeds; a character that is no blank keeps what stands before it apart from what stands behind.
-/
namespace TripleTable

-- A blank within a line.
def isPad (c : Char) : Bool := isBlank c && c != '\n'

namespace Text

variable {s line front rest : Text} {c : Char}

theorem trim_end_append (front rest : Text) :
    trimEnd (front ++ rest) =
      if trimEnd rest = [] then trimEnd front else front ++ trimEnd rest := by
  rw [trimEnd, List.reverse_append, List.dropWhile_append]
  by_cases empty : rest.reverse.dropWhile isBlank = []
  · simp [trimEnd, empty]
  · simp [trimEnd, empty]

theorem trim_end_cons (c : Char) (s : Text) :
    trimEnd (c :: s) = if trimEnd s = [] ∧ isBlank c then [] else c :: trimEnd s := by
  rw [← List.singleton_append, trim_end_append]
  by_cases blank : isBlank c
  · simp [blank, trimEnd]
  · by_cases empty : trimEnd s = []
    · have lone : trimEnd [c] = [c] := by simp [trimEnd, blank]
      simp [blank, empty, lone]
    · simp [empty]

theorem trim_end_mark (solid : isBlank c = false) :
    trimEnd (front ++ c :: rest) = front ++ c :: trimEnd rest := by
  rw [trim_end_append, trim_end_cons]
  simp [solid]

theorem trim_end_blanks : trimEnd s = [] ↔ ∀ c ∈ s, isBlank c := List.rdropWhile_eq_nil_iff

theorem trim_end_twice (s : Text) : trimEnd (trimEnd s) = trimEnd s :=
  List.rdropWhile_idempotent isBlank s

-- Both ends are trimmed, in either order.
theorem trim_ends (s : Text) : trim s = trimStart (trimEnd s) := by
  induction s with
  | nil => rfl
  | cons c s ih =>
    by_cases blank : isBlank c
    · have shorter : trim (c :: s) = trim s := by simp [trim, trimStart, blank]
      rw [shorter, ih, trim_end_cons]
      by_cases empty : trimEnd s = []
      · simp [blank, empty, trimStart]
      · simp [blank, empty, trimStart]
    · simp [trim, trimStart, trim_end_cons, blank]

-- Drops the blanks before every line feed.
def unpad : Text → Text
  | [] => []
  | c :: s =>
    if isPad c ∧ (s.dropWhile isPad).head? = some '\n' then unpad s else c :: unpad s

theorem pads_end (whole : '\n' ∉ line) :
    ((line ++ '\n' :: rest).dropWhile isPad).head? = some '\n' ↔ trimEnd line = [] := by
  rw [trim_end_blanks]
  induction line with
  | nil => simp [isPad]
  | cons c line ih =>
    obtain ⟨other, more⟩ := not_or.mp (List.mem_cons.not.mp whole)
    by_cases blank : isBlank c
    · simp [isPad, blank, Ne.symm other, ← ih more]
    · simp [isPad, blank, Ne.symm other]

theorem unpad_line (whole : '\n' ∉ line) :
    unpad (line ++ '\n' :: rest) = trimEnd line ++ '\n' :: unpad rest := by
  induction line with
  | nil => simp [unpad, isPad, trimEnd]
  | cons c line ih =>
    obtain ⟨other, more⟩ := not_or.mp (List.mem_cons.not.mp whole)
    simp only [List.cons_append, unpad, pads_end more, ih more, trim_end_cons]
    by_cases blank : isBlank c
    · by_cases empty : trimEnd line = []
      · simp [isPad, blank, Ne.symm other, empty]
      · simp [empty]
    · simp [isPad, blank]

theorem unpad_last (whole : '\n' ∉ s) : unpad s = s := by
  induction s with
  | nil => rfl
  | cons c s ih =>
    have more := (not_or.mp (List.mem_cons.not.mp whole)).2
    have kept : (s.dropWhile isPad).head? ≠ some '\n' := fun head =>
      more ((List.dropWhile_sublist isPad).subset (List.mem_of_head? head))
    rw [unpad, if_neg fun drops => kept drops.2, ih more]

theorem split_line (whole : '\n' ∉ line) :
    splitOn (· = '\n') (line ++ '\n' :: rest) = line :: splitOn (· = '\n') rest := by
  induction line with
  | nil => simp [splitOn]
  | cons c line ih =>
    obtain ⟨other, more⟩ := not_or.mp (List.mem_cons.not.mp whole)
    simp [splitOn, Ne.symm other, ih more]

theorem split_last (whole : '\n' ∉ s) : splitOn (· = '\n') s = [s] := by
  induction s with
  | nil => rfl
  | cons c s ih =>
    obtain ⟨other, more⟩ := not_or.mp (List.mem_cons.not.mp whole)
    simp [splitOn, Ne.symm other, ih more]

-- Induction over the lines of a text.
theorem by_lines {P : Text → Prop} (last : ∀ line, '\n' ∉ line → P line)
    (next : ∀ line rest, '\n' ∉ line → P rest → P (line ++ '\n' :: rest)) (s : Text) : P s := by
  by_cases whole : '\n' ∈ s
  · obtain ⟨line, rest, split, clean⟩ := List.eq_append_cons_of_mem whole
    have shorter : rest.length < s.length := by
      simp only [split, List.length_append, List.length_cons]
      omega
    rw [split]
    exact next line rest clean (by_lines last next rest)
  · exact last s whole
termination_by s.length

theorem unpad_plain (all : ∀ c ∈ s, isPad c = false) : unpad s = s := by
  induction s with
  | nil => rfl
  | cons c s ih =>
    have first := all c List.mem_cons_self
    have others := ih fun d member => all d (List.mem_cons_of_mem c member)
    rw [unpad, if_neg (by simp [first]), others]

theorem unpad_mark (solid : isBlank c = false) :
    unpad (front ++ c :: rest) = unpad front ++ c :: unpad rest := by
  have other : c ≠ '\n' := by
    rintro rfl
    cases solid
  induction front with
  | nil => simp [unpad, isPad, solid]
  | cons d front ih =>
    have same : ((front ++ c :: rest).dropWhile isPad).head? = some '\n' ↔
        (front.dropWhile isPad).head? = some '\n' := by
      rw [List.dropWhile_append]
      by_cases empty : front.dropWhile isPad = []
      · simp [empty, isPad, solid, other]
      · obtain ⟨e, more, split⟩ := List.exists_cons_of_ne_nil empty
        simp [split]
    simp only [List.cons_append, unpad, same, ih]
    split <;> rfl

theorem unpad_blanks (all : ∀ c ∈ s, isBlank c) : ∀ c ∈ unpad s, isBlank c := by
  induction s with
  | nil => exact all
  | cons c s ih =>
    obtain ⟨first, others⟩ := List.forall_mem_cons.mp all
    rw [unpad]
    split
    · exact ih others
    · exact List.forall_mem_cons.mpr ⟨first, ih others⟩

-- No blank stands directly before a line feed.
def Unpadded (s : Text) : Prop := ∀ c, [c, '\n'] <:+: s → isPad c = false

theorem unpadded_cons :
    Unpadded (c :: s) ↔ (s.head? = some '\n' → isPad c = false) ∧ Unpadded s := by
  have first (d : Char) : [d, '\n'] <+: c :: s ↔ d = c ∧ s.head? = some '\n' := by
    rw [List.cons_prefix_cons]
    cases s with
    | nil => simp
    | cons e s => simp [eq_comm]
  simp only [Unpadded, List.infix_cons_iff, first]
  constructor
  · exact fun all => ⟨fun head => all c (.inl ⟨rfl, head⟩), fun d inside => all d (.inr inside)⟩
  · rintro ⟨here, later⟩ d (⟨rfl, head⟩ | inside)
    · exact here head
    · exact later d inside

theorem unpadded_head (unpadded : Unpadded s)
    (ends : (s.dropWhile isPad).head? = some '\n') : s.head? = some '\n' := by
  obtain ⟨rest, behind⟩ := List.head?_eq_some_iff.mp ends
  have split : s = s.takeWhile isPad ++ '\n' :: rest := by
    rw [← behind, List.takeWhile_append_dropWhile]
  rcases List.eq_nil_or_concat (s.takeWhile isPad) with empty | ⟨front, c, run⟩
  · rw [split, empty]
    rfl
  · have pad : isPad c := List.mem_takeWhile_imp (by rw [run]; simp)
    have next : [c, '\n'] <:+: s := ⟨front, rest, by rw [split, run]; simp⟩
    rw [unpadded c next] at pad
    cases pad

theorem unpad_sublist (s : Text) : (unpad s).Sublist s := by
  induction s with
  | nil => exact .slnil
  | cons c s ih =>
    rw [unpad]
    split
    · exact ih.cons c
    · exact ih.cons_cons c

theorem unpad_same : unpad s = s ↔ Unpadded s := by
  induction s with
  | nil => simp [unpad, Unpadded]
  | cons c s ih =>
    rw [unpadded_cons, ← ih, unpad]
    split
    · rename_i drops
      constructor
      · intro same
        have lengths := (unpad_sublist s).length_le
        rw [same, List.length_cons] at lengths
        omega
      · rintro ⟨kept, same⟩
        have head := unpadded_head (ih.mp same) drops.2
        rw [kept head] at drops
        cases drops.1
    · rename_i kept
      simp only [List.cons.injEq, true_and]
      constructor
      · intro same
        refine ⟨fun head => ?_, same⟩
        by_contra pad
        apply kept
        have stays : s.dropWhile isPad = s := by
          obtain ⟨rest, rfl⟩ := List.head?_eq_some_iff.mp head
          rfl
        rw [stays]
        exact ⟨by simpa using pad, head⟩
      · exact And.right

/-! ### A second trimming changes nothing -/

theorem unpad_head :
    (unpad s).head? = some '\n' ↔ (s.dropWhile isPad).head? = some '\n' := by
  induction s with
  | nil => rfl
  | cons c s ih =>
    by_cases pad : isPad c
    · have other : c ≠ '\n' := by
        rintro rfl
        cases pad
      rw [unpad, List.dropWhile_cons_of_pos pad]
      by_cases ends : (s.dropWhile isPad).head? = some '\n'
      · rw [if_pos ⟨pad, ends⟩]
        exact ih
      · rw [if_neg fun drops => ends drops.2]
        simp [ends, other]
    · rw [unpad, if_neg fun drops => pad drops.1, List.dropWhile_cons_of_neg pad]
      rfl

theorem unpad_unpadded (s : Text) : Unpadded (unpad s) := by
  induction s with
  | nil => exact unpad_same.mp rfl
  | cons c s ih =>
    rw [unpad]
    split
    · exact ih
    · rename_i kept
      refine unpadded_cons.mpr ⟨fun head => ?_, ih⟩
      by_contra pad
      exact kept ⟨by simpa using pad, unpad_head.mp head⟩

theorem Unpadded.part {part : Text} (unpadded : Unpadded s) (inside : part <:+: s) :
    Unpadded part := fun c pair => unpadded c (pair.trans inside)

theorem trim_start_trimmed (s : Text) : trimStart (trim s) = trim s := by
  rw [trim_ends, trimStart, trimStart, List.dropWhile_idempotent]

theorem trim_end_trimmed (s : Text) : trimEnd (trim s) = trim s := by
  rw [trim, trim_end_twice]

theorem trim_part (s : Text) : trim s <:+: s :=
  (List.rdropWhile_prefix isBlank _).isInfix.trans (List.dropWhile_suffix isBlank).isInfix

end Text
end TripleTable
