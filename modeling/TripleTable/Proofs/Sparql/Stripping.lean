import TripleTable.Proofs.Sparql.Parallel
set_option autoImplicit false

/-!
Removal of comments from a query that is accepted. Such a query has none, and what is left of it is
accepted too: as the same query, but for the blanks before a line feed inside its literals.
-/
namespace TripleTable.Sparql

open Reader

-- Nothing ends the reading of the second text alone.
def Never (_ : Entry) : Prop := False

theorem tidied_piece {s s' : Text} (tidied : Tidied s s') :
    Piece Tidied Tidied Text.unpad s s' := by
  cases tidied with
  | blanks all =>
    have nothing : BeginsBlank [] := by simp [BeginsBlank]
    exact .blank (fun c head => all c (List.mem_of_head? head)) nothing
  | gap wide kept rest =>
    exact .blank (begins_blank_cons (isBlank_of_isSpace (wide _ List.mem_cons_self)) _)
      (begins_blank_cons (isBlank_of_isSpace kept) _)
  | bare kind rest => exact bare_piece kind rest id
  | iri inside rest => exact .iri inside rest
  | quoted mark absent rest =>
    exact .quoted mark absent (fun member => absent ((Text.unpad_sublist _).subset member)) rest

theorem tidied_parallel : Parallel Tidied Tidied Text.unpad where
  piece := fun _ _ => tidied_piece
  kept := fun plain => Text.unpad_plain fun c member => by
    simp [isPad, bare_not_blank (plain_bare (plain c member))]
  inside := fun _ _ => id
  start := fun _ _ => .inl
  waits := fun _ _ tidied => tidied.dropped

-- A group does not close in blanks, nor at the end of the text.
theorem unclosed {n : Nat} {s : Text} (tidied : Tidied (s.dropWhile isSpace) []) :
    ∃ trace, elementsUpTo (n + 1) s = .error (.final trace) := by
  cases here : s.dropWhile isSpace with
  | nil =>
    rw [elementsUpTo]
    simp only [here]
    exact ⟨_, rfl⟩
  | cons c tail =>
    rw [here] at tidied
    have blank := tidied.all_blank c List.mem_cons_self
    have apart {d : Char} (solid : isBlank d = false) : c ≠ d := by
      rintro rfl
      rw [blank] at solid
      cases solid
    have minus : Alike Never Tidied Tidied id (spaced (keyword "MINUS"))
        (spaced (keyword "MINUS")) :=
      tidied_parallel.waiting (tidied_parallel.alike_word (by decide) (by decide))
    have triples : Alike Never Tidied Tidied (List.map (TriplePattern.mapLiterals Text.unpad))
        sameSubject sameSubject := tidied_parallel.waiting tidied_parallel.alike_subject
    obtain ⟨_, word⟩ := Agree.error (fun _ => id) (minus tidied)
    obtain ⟨halt, subject⟩ := Agree.error (fun _ => id) (triples tidied)
    have block : ∃ trace, triplesBlock n (c :: tail) = .error (.final trace) := by
      have committed : within "Error in triple pattern" (commit sameSubject) (c :: tail) =
          .error (.final (halt.trace ++ [⟨"Error in triple pattern", c :: tail⟩])) := by
        rw [within, commit, subject]
        rfl
      exact ⟨_, by rw [triplesBlock, bind_error committed]⟩
    rw [elements_round n here, elementRound, if_neg (apart (by decide)), if_neg (apart (by decide)),
      if_neg (apart (by decide)), word]
    cases unsupported? (c :: tail) with
    | some message => exact ⟨_, rfl⟩
    | none => exact block

theorem tidied_rounds : Rounds Never Tidied Tidied Text.unpad := by
  intro s s' tidied blank here there n n'
  obtain ⟨blank_here, blank_there⟩ := blank tidied
  cases s' with
  | nil =>
    rw [← here] at tidied
    obtain ⟨trace, ends⟩ := @unclosed n s tidied
    obtain ⟨trace', ends'⟩ := @unclosed n' [] (.blanks (by simp))
    rw [ends, ends']
    exact .ends
  | cons d tail' =>
    -- The second text would begin with a space, which was dropped, or with no blank.
    have first : isBlank d := blank_there d rfl
    cases tidied with
    | gap wide kept rest =>
      have solid : isSpace d = false := head_dropped d (by rw [there]; rfl)
      rw [kept] at solid
      cases solid
    | bare kind rest => exact absurd first (by simp [bare_not_blank kind])
    | iri inside rest => exact absurd first (by decide)
    | quoted mark absent rest => exact absurd first (by simp [quote_not_blank mark])

theorem alike_query : Alike Never (Begun Tidied) Tidied (SelectQuery.mapLiterals Text.unpad)
    selectQuery selectQuery := tidied_parallel.alike_query tidied_rounds

-- What is left of an accepted query once its comments are removed: a query that differs in the
-- blanks before line feeds inside its literals, and is the same one if there are none.
theorem stripped_query_read {t : Text} {q : SelectQuery} (accepted : parseQuery t = .ok q) :
    parseQuery (stripComments t) = .ok (q.mapLiterals Text.unpad) ∧
      (q.mapLiterals Text.unpad = q ↔ ∀ lexical ∈ q.literals, Text.Unpadded lexical) := by
  constructor
  · obtain ⟨rest, read, blanks, declared⟩ := accepted_read accepted
    have agree := alike_query (stripped_tidied (accepted_free accepted))
    rw [read] at agree
    generalize result : selectQuery (stripComments t) = x at agree
    cases agree with
    | stops stop => cases stop
    | @reads _ _ rest' behind =>
      have ends : Text.trimStart rest' = [] :=
        List.dropWhile_eq_nil_iff.mpr (behind.stay_blank blanks)
      have same : undeclared? (q.mapLiterals Text.unpad).prologue
          ((allTriples (q.mapLiterals Text.unpad).pattern).flatMap TriplePattern.terms) = none := by
        simp only [SelectQuery.mapLiterals, triples_map, List.flatMap_map, terms_map]
        rw [← List.map_flatMap, undeclared_map, declared]
      unfold parseQuery
      rw [result]
      simp only [ends, same]
      rfl
  · simp only [query_kept, Text.unpad_same]

-- The literals of the query that a text is read as.
def literalsRead? (t : Text) : Option (List Text) :=
  (parseQuery t).toOption.map SelectQuery.literals

theorem literals_read {t : Text} {literals : List Text} (read : literalsRead? t = some literals) :
    ∃ q, parseQuery t = .ok q ∧ q.literals = literals := by
  unfold literalsRead? at read
  cases parsed : parseQuery t with
  | error trace =>
    rw [parsed] at read
    cases read
  | ok q =>
    rw [parsed] at read
    cases read
    exact ⟨q, rfl, rfl⟩

-- Number signs in an IRI and in a literal, and blanks at the ends of the lines.
def notedText : Text := "\n SELECT * \t\n\n\x7b ?s <a#b> '#1\n #2' \x7d \n"

theorem noted_query_kept : ∃ q, parseQuery notedText = .ok q ∧
    parseQuery (stripComments notedText) = .ok q ∧ stripComments notedText ≠ notedText := by
  have read : literalsRead? notedText = some (["#1\n #2"] : List Text) := by
    decide +kernel
  obtain ⟨q, accepted, literals⟩ := literals_read read
  obtain ⟨stripped, kept⟩ := stripped_query_read accepted
  have plain : ∀ lexical ∈ q.literals, Text.Unpadded lexical := by
    intro lexical member
    rw [literals, List.mem_singleton] at member
    rw [member, ← Text.unpad_same]
    decide +kernel
  rw [kept.mpr plain] at stripped
  exact ⟨q, accepted, stripped, by decide +kernel⟩

def paddedText : Text := "SELECT ?x WHERE \x7b ?x <p> \"a \nb\" \x7d"

theorem padded_literal_changed : ∃ q q', parseQuery paddedText = .ok q ∧
    parseQuery (stripComments paddedText) = .ok q' ∧ q.literals = ["a \nb"] ∧
    q'.literals = ["a\nb"] := by
  have before : literalsRead? paddedText = some (["a \nb"] : List Text) := by decide +kernel
  have behind : literalsRead? (stripComments paddedText) = some (["a\nb"] : List Text) := by
    decide +kernel
  obtain ⟨q, accepted, literals⟩ := literals_read before
  obtain ⟨q', accepted', literals'⟩ := literals_read behind
  exact ⟨q, q', accepted, accepted', literals, literals'⟩

end TripleTable.Sparql
