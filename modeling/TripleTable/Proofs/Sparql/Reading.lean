import TripleTable.Proofs.Text.Characters
import TripleTable.Sparql.Term
set_option autoImplicit false

/-!
How readers run on a text whose beginning is known: what a step reads, and where it gives way to
the next alternative.
-/
namespace TripleTable.Sparql.Reader

section
variable {α β : Type} {s rest : Text}

def Fails (r : Reader α) (s : Text) : Prop := ∃ trace, r s = .error (.recoverable trace)

theorem bind_ok {p : Reader α} {f : α → Reader β} {value : α} (read : p s = .ok (value, rest)) :
    (p >>= f) s = f value rest := by
  simp only [bind, StateT.bind, read, Except.bind]

theorem bind_error {p : Reader α} {f : α → Reader β} {halt : Halt} (fails : p s = .error halt) :
    (p >>= f) s = .error halt := by
  simp only [bind, StateT.bind, fails, Except.bind]

theorem pure_run (value : α) (s : Text) : (pure value : Reader α) s = .ok (value, s) := rfl

theorem map_ok {p : Reader α} (f : α → β) {value : α} (read : p s = .ok (value, rest)) :
    (f <$> p) s = .ok (f value, rest) := by
  simp only [Functor.map, StateT.map, bind, read, Except.bind]
  rfl

theorem seq_right_ok {p : Reader α} {q : Reader β} {value : α} (read : p s = .ok (value, rest)) :
    (p *> q) s = q rest := by
  simp only [SeqRight.seqRight, bind, StateT.bind, read, Except.bind]

theorem bind_fails {p : Reader α} {f : α → Reader β} (fails : Fails p s) :
    Fails (p >>= f) s := by
  obtain ⟨trace, halts⟩ := fails
  exact ⟨trace, bind_error halts⟩

theorem map_fails {p : Reader α} (f : α → β) (fails : Fails p s) : Fails (f <$> p) s := by
  obtain ⟨trace, halts⟩ := fails
  refine ⟨trace, ?_⟩
  simp only [Functor.map, StateT.map, bind, halts, Except.bind]

theorem seq_right_fails {p : Reader α} {q : Reader β} (fails : Fails p s) : Fails (p *> q) s := by
  obtain ⟨trace, halts⟩ := fails
  refine ⟨trace, ?_⟩
  simp only [SeqRight.seqRight, bind, StateT.bind, halts, Except.bind]

theorem within_ok {r : Reader α} {value : α} (context : String) (read : r s = .ok (value, rest)) :
    within context r s = .ok (value, rest) := by
  rw [within, read]

theorem commit_ok {r : Reader α} {value : α} (read : r s = .ok (value, rest)) :
    commit r s = .ok (value, rest) := by
  rw [commit, read]

theorem optional_ok {r : Reader α} {value : α} (read : r s = .ok (value, rest)) :
    optional r s = .ok (some value, rest) := by
  rw [optional, read]

theorem optional_fails {r : Reader α} (fails : Fails r s) : optional r s = .ok (none, s) := by
  obtain ⟨trace, halts⟩ := fails
  rw [optional, halts]

theorem first_of_here {r : Reader α} {others : List (Reader α)} {value : α}
    (read : r s = .ok (value, rest)) : firstOf (r :: others) s = .ok (value, rest) := by
  cases others with
  | nil => simp only [firstOf, read]
  | cons next others => simp only [firstOf, read]

theorem first_of_next {r next : Reader α} {others : List (Reader α)} (fails : Fails r s) :
    firstOf (r :: next :: others) s = firstOf (next :: others) s := by
  obtain ⟨trace, halts⟩ := fails
  simp only [firstOf, halts]

theorem first_of_fails {readers : List (Reader α)} (fails : ∀ r ∈ readers, Fails r s) :
    Fails (firstOf readers) s := by
  induction readers with
  | nil => exact ⟨_, rfl⟩
  | cons r others ih =>
    obtain ⟨here, later⟩ := List.forall_mem_cons.mp fails
    cases others with
    | nil =>
      obtain ⟨trace, halts⟩ := here
      exact ⟨trace ++ [exhausted s], by simp only [firstOf, halts]⟩
    | cons next others =>
      obtain ⟨trace, halts⟩ := ih later
      exact ⟨trace, by rw [first_of_next here, halts]⟩

theorem two_fail {r next : Reader α} (first : Fails r s) (second : Fails next s) :
    Fails (firstOf [r, next]) s := by
  apply first_of_fails
  simp [first, second]

theorem spaced_ok {r : Reader α} {value : α}
    (read : r (s.dropWhile isSpace) = .ok (value, rest)) :
    spaced r s = .ok (value, rest.dropWhile isSpace) := by
  have lead : run isSpace s = .ok (s.takeWhile isSpace, s.dropWhile isSpace) := rfl
  have behind : run isSpace rest = .ok (rest.takeWhile isSpace, rest.dropWhile isSpace) := rfl
  rw [spaced, bind_ok lead, bind_ok read, bind_ok behind, pure_run]

theorem spaced_fails {r : Reader α} (fails : Fails r (s.dropWhile isSpace)) :
    Fails (spaced r) s := by
  have lead : run isSpace s = .ok (s.takeWhile isSpace, s.dropWhile isSpace) := rfl
  obtain ⟨trace, halts⟩ := bind_fails fails
  exact ⟨trace, by rw [spaced, bind_ok lead, halts]⟩

theorem char_ok (c : Char) (rest : Text) : char c (c :: rest) = .ok ((), rest) := by
  rw [char, if_pos rfl]

theorem char_fails {c d : Char} (other : d ≠ c) (rest : Text) : Fails (char c) (d :: rest) :=
  ⟨_, by rw [char, if_neg other]⟩

theorem char_missing {c : Char} (other : s.head? ≠ some c) : Fails (char c) s := by
  cases s with
  | nil => exact ⟨_, rfl⟩
  | cons d s =>
    apply char_fails
    rintro rfl
    exact other rfl

end

theorem space_listed {c : Char} (space : isSpace c) : c ∈ [' ', '\t', '\r', '\n'] := by
  simpa [isSpace, or_assoc] using space

section
variable {p : Char → Bool} {front rest : Text}

theorem run_ok (all : ∀ c ∈ front, p c) (stops : ∀ c ∈ rest.head?, p c = false) :
    run p (front ++ rest) = .ok (front, rest) := by
  rw [run, (run_exact all stops).1, (run_exact all stops).2]

theorem run1_ok (inhabited : front ≠ []) (all : ∀ c ∈ front, p c)
    (stops : ∀ c ∈ rest.head?, p c = false) : run1 p (front ++ rest) = .ok (front, rest) := by
  have some_front : front.isEmpty = false := by simpa using inhabited
  rw [run1, (run_exact all stops).1, (run_exact all stops).2, some_front]
  rfl

end
end TripleTable.Sparql.Reader
