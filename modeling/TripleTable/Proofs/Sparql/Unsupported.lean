import TripleTable.Proofs.Sparql.Parallel
import TripleTable.Proofs.Sparql.Patterns
set_option autoImplicit false

/-!
Constructs that a group may not hold. Wherever an element may begin, the keyword of one ends the
reading with its own message, whatever stands behind it; a prefix that is spelled like the keyword
does not.
-/
namespace TripleTable.Sparql
open Reader

/-! ### Keywords that are no prefix of each other -/

def Apart (word other : Text) : Prop :=
  ¬Text.asciiLower word <+: Text.asciiLower other ∧
    ¬Text.asciiLower other <+: Text.asciiLower word

instance (word other : Text) : Decidable (Apart word other) := inferInstanceAs (Decidable (_ ∧ _))

theorem keyword_fails_apart {word other token : Text} (apart : Apart word other)
    (same : IsKeyword other token) (s : Text) : Fails (keyword word) (token ++ s) := by
  cases found : Text.afterNoCase? word (token ++ s) with
  | none => exact ⟨[unexpected (token ++ s)], by simp only [keyword, found]⟩
  | some rest =>
    obtain ⟨front, split, spelled⟩ := after_no_case_begins found
    have lower : Text.asciiLower token = Text.asciiLower other := same
    have lower' : Text.asciiLower front = Text.asciiLower word := spelled
    rw [Apart, ← lower, ← lower'] at apart
    -- Both tokens begin the text, so that one of them begins with the other one.
    rcases List.prefix_or_prefix_of_prefix (List.prefix_append token s)
      (split ▸ List.prefix_append front rest) with start | start
    · exact absurd (start.map Char.toLower) apart.2
    · exact absurd (start.map Char.toLower) apart.1

theorem unsupported_apart : ∀ construct ∈ unsupported,
    isWord construct.1 ∧ (∀ word ∈ writtenWords, Apart word construct.1) ∧
      ∀ other ∈ unsupported, other = construct ∨ Apart other.1 construct.1 := by
  decide +kernel

theorem unsupported_found {construct : Text × String} (member : construct ∈ unsupported)
    {word rest : Text} (same : IsKeyword construct.1 word)
    (ends : ∀ c ∈ rest.head?, isNameChar c = false ∧ c ≠ ':') :
    unsupported? (word ++ rest) = some construct.2 := by
  obtain ⟨_, _, others⟩ := unsupported_apart construct member
  have listed : ∀ other ∈ unsupported,
      (keyword other.1 (word ++ rest)).isOk = (other == construct) := by
    intro other inside
    by_cases equal : other = construct
    · rw [equal, keyword_ok same ends, beq_self_eq_true]
      rfl
    · obtain ⟨trace, halts⟩ :=
        keyword_fails_apart ((others other inside).resolve_left equal) same rest
      rw [halts, beq_eq_false_iff_ne.mpr equal]
      rfl
  obtain ⟨found, first⟩ := Option.isSome_iff_exists.mp
    ((@List.find?_isSome _ unsupported (· == construct)).mpr ⟨construct, member, by simp⟩)
  have equal : found = construct := by simpa using List.find?_some first
  rw [unsupported?, List.find?_congr listed, first, equal]
  rfl

/-! ### Where a construct or a closing brace stands -/

theorem number_fails {c : Char} (other : isSign c = false ∧ c ≠ '.' ∧ c.isDigit = false)
    (s : Text) : Fails numericLiteral (c :: s) := by
  obtain ⟨no_sign, no_point, no_digit⟩ := other
  have sign : Fails (oneOf isSign) (c :: s) := ⟨_, by simp [oneOf, no_sign]; rfl⟩
  have digits : Fails (run1 Char.isDigit) (c :: s) := ⟨_, by simp [run1, no_digit]; rfl⟩
  obtain ⟨trace, halts⟩ := @two_fail _ (c :: s) _ fraction (bind_fails digits)
    (bind_fails (char_fails no_point s))
  apply matched_fails
  refine ⟨trace, ?_⟩
  rw [bind_ok (optional_fails sign), bind_error halts]

theorem declared_missing {label s : Text} (plain : IsLabel label)
    (ends : ∀ c ∈ s.head?, isNameChar c = false ∧ c ≠ ':') : Fails declaredLabel (label ++ s) := by
  obtain ⟨trace, halts⟩ := bind_fails (f := fun _ => pure label)
    (char_missing fun head => (ends ':' head).2 rfl)
  exact ⟨trace, by rw [declaredLabel, bind_ok (run_ok plain fun c head => (ends c head).1), halts]⟩

def unreadMarks : List Char :=
  [',', ';', '*', '\x7b', '?', '$', '<', '"', '\'', '+', '-', '.']

-- A label without its colon, but no keyword that a query may hold.
theorem unread_at {c : Char} {s label rest : Text} (here : c :: s = label ++ rest)
    (plain : IsLabel label) (ends : ∀ d ∈ rest.head?, isNameChar d = false ∧ d ≠ ':')
    (solid : isSpace c = false) (other : c ∉ unreadMarks) (no_digit : c.isDigit = false)
    (words : ∀ word ∈ writtenWords, Fails (keyword word) (c :: s)) : Unread (c :: s) := by
  simp only [unreadMarks, List.mem_cons, List.not_mem_nil, not_or, or_false] at other
  obtain ⟨comma, semicolon, star, brace, question, dollar, angle, double, single, plus, minus,
    point⟩ := other
  have start : label.head? ≠ some '-' := by
    intro head
    obtain ⟨more, rfl⟩ := List.head?_eq_some_iff.mp head
    exact minus (List.cons.inj here).1
  refine ⟨List.dropWhile_cons_of_neg (by simp [solid]), ?_, words,
    variable_fails ⟨question, dollar⟩ s, iri_fails angle s, ?_, ?_, ?_, ?_⟩
  · simp only [List.forall_mem_cons, List.not_mem_nil, false_implies, implies_true, and_true]
    exact ⟨char_fails comma s, char_fails semicolon s, char_fails star s, char_fails brace s⟩
  · rw [here]
    exact label_missing plain start ends
  · rw [here]
    exact declared_missing plain ends
  · rintro quote (rfl | rfl)
    · exact quoted_fails double s
    · exact quoted_fails single s
  · exact number_fails ⟨by simp [isSign, plus, minus], point, no_digit⟩ s

theorem unread_close (s : Text) : Unread ('\x7d' :: s) := by
  have letters : ∀ word ∈ writtenWords, isWord word := by decide
  refine @unread_at '\x7d' s [] _ rfl (by simp [IsLabel]) ?_ (by decide) (by decide) (by decide) ?_
  · intro c head
    cases head
    decide
  · exact fun word member => keyword_fails_symbol (letters word member) (by decide) s

theorem unread_construct {construct : Text × String} (member : construct ∈ unsupported)
    {word rest : Text} (same : IsKeyword construct.1 word)
    (ends : ∀ c ∈ rest.head?, isNameChar c = false ∧ c ≠ ':') : Unread (word ++ rest) := by
  obtain ⟨letters, apart, _⟩ := unsupported_apart construct member
  have words : ∀ other ∈ writtenWords, Fails (keyword other) (word ++ rest) :=
    fun other written => keyword_fails_apart (apart other written) same rest
  have plain := keyword_label letters same
  obtain ⟨c, tail, _, _, rfl, _, _, letter⟩ := keyword_head letters same
  have others : ∀ d ∈ unreadMarks, d.isAlpha = false := each_char (by decide)
  have no_digit : c.isDigit = false := by
    by_contra digit
    have above := alpha_bounds letter
    have below := digit_bounds (by simpa using digit)
    omega
  exact @unread_at c (tail ++ rest) (c :: tail) rest rfl plain ends (letter_not_space letter)
    (fun listed => letter_other letter (others c listed) rfl) no_digit words

/-! ### Texts with one front -/

-- What parts a keyword from the text in front of it.
def PartsKeyword (c : Char) : Prop := isSpace c ∨ c = '\x7b' ∨ c = '\x7d'

-- The same text up to a character that parts it from `t` on one side and from `t'` on the other.
inductive Shared (t t' : Text) : Text → Text → Prop
  | last {c : Char} (parts : PartsKeyword c) : Shared t t' (c :: t) (c :: t')
  | space {c : Char} {s s' : Text} (kind : isSpace c) (rest : Shared t t' s s') :
    Shared t t' (c :: s) (c :: s')
  | bare {c : Char} {s s' : Text} (kind : isBare c) (rest : Shared t t' s s') :
    Shared t t' (c :: s) (c :: s')
  | iri {body s s' : Text} (inside : ∀ c ∈ body, isIriChar c) (rest : Shared t t' s s') :
    Shared t t' ('<' :: (body ++ '>' :: s)) ('<' :: (body ++ '>' :: s'))
  | quoted {quote : Char} {body s s' : Text} (mark : quote = '"' ∨ quote = '\'')
    (absent : quote ∉ body) (rest : Shared t t' s s') :
    Shared t t' (quote :: (body ++ quote :: s)) (quote :: (body ++ quote :: s'))

def SharedFrom (t t' s s' : Text) : Prop := Shared t t' s s' ∨ s = t ∧ s' = t'

section
variable {t t' : Text}

theorem shared_piece {s s' : Text} (shared : Shared t t' s s') :
    Piece (Shared t t') (SharedFrom t t') id s s' := by
  cases shared with
  | last parts =>
    rcases parts with space | brace
    · have blank := isBlank_of_isSpace space
      exact .blank (begins_blank_cons blank t) (begins_blank_cons blank t')
    · exact .brace brace (.inr ⟨rfl, rfl⟩)
  | space kind rest =>
    have blank := isBlank_of_isSpace kind
    exact .blank (begins_blank_cons blank _) (begins_blank_cons blank _)
  | bare kind rest => exact bare_piece kind rest .inl
  | iri inside rest => exact .iri inside rest
  | quoted mark absent rest => exact .quoted mark absent absent rest

-- Up to the blanks that they begin with, the texts have one front or are the two that it parts.
theorem Shared.dropped {s s' : Text} (shared : Shared t t' s s')
    (here : t.dropWhile isSpace = t) (there : t'.dropWhile isSpace = t') :
    SharedFrom t t' (s.dropWhile isSpace) (s'.dropWhile isSpace) := by
  induction shared with
  | @last c parts =>
    by_cases space : isSpace c
    · rw [List.dropWhile_cons_of_pos space, List.dropWhile_cons_of_pos space, here, there]
      exact .inr ⟨rfl, rfl⟩
    · rw [List.dropWhile_cons_of_neg space, List.dropWhile_cons_of_neg space]
      exact .inl (.last parts)
  | space kind rest ih =>
    rw [List.dropWhile_cons_of_pos kind, List.dropWhile_cons_of_pos kind]
    exact ih
  | bare kind rest =>
    rw [mark_stays (bare_not_blank kind), mark_stays (bare_not_blank kind)]
    exact .inl (.bare kind rest)
  | iri inside rest => exact .inl (.iri inside rest)
  | quoted mark absent rest =>
    rw [mark_stays (quote_not_blank mark), mark_stays (quote_not_blank mark)]
    exact .inl (.quoted mark absent rest)

theorem shared_parallel (here : Unread t) (there : Unread t') :
    Parallel (Shared t t') (SharedFrom t t') id where
  piece := fun _ _ => shared_piece
  kept := fun _ => rfl
  inside := fun _ _ => .inl
  start := by
    rintro s s' (shared | ⟨rfl, rfl⟩)
    · exact .inl shared
    · exact .inr ⟨here, there⟩
  waits := by
    rintro s s' (shared | ⟨rfl, rfl⟩)
    · exact shared.dropped here.stays there.stays
    · rw [Begun, here.stays, there.stays]
      exact .inr ⟨rfl, rfl⟩

theorem Shared.begins_space {s s' : Text} (shared : Shared t t' s s') (blank : BeginsBlank s) :
    ∃ c ∈ s.head?, isSpace c := by
  cases shared with
  | last parts =>
    rcases parts with space | rfl | rfl
    · exact ⟨_, rfl, space⟩
    · exact absurd (blank _ rfl) (by decide)
    · exact absurd (blank _ rfl) (by decide)
  | space kind rest => exact ⟨_, rfl, kind⟩
  | bare kind rest => exact absurd (blank _ rfl) (by simp [bare_not_blank kind])
  | iri inside rest => exact absurd (blank _ rfl) (by decide)
  | quoted mark absent rest => exact absurd (blank _ rfl) (by simp [quote_not_blank mark])

-- Without blanks in front of them, the texts have parted or begin with one character.
theorem shared_rounds {Stop : Entry → Prop} (stopped : ∀ n, ∃ entry trace, Stop entry ∧
      elementsUpTo (n + 1) t' = .error (.final (entry :: trace))) :
    Rounds Stop (Shared t t') (SharedFrom t t') id := by
  rintro s s' (shared | ⟨rfl, rfl⟩) blank here _ n n'
  · obtain ⟨c, head, space⟩ := shared.begins_space (blank shared).1
    have solid : isSpace c = false := head_dropped c (by rw [here]; exact head)
    rw [space] at solid
    cases solid
  · obtain ⟨entry, trace, stop, ends⟩ := stopped n'
    rw [ends]
    exact .stops stop

end

-- A piece of a text without comments lies in front of the braces that end the text.
theorem piece_in_front {piece front s t : Text} {e b : Char} (split : piece ++ e :: s = front ++ t)
    (closing : ∀ c ∈ t, c = '\x7d') (other : e ≠ '\x7d') (ends : front.getLast? = some b)
    (apart : e ≠ b) :
    ∃ more, front = piece ++ e :: more ∧ s = more ++ t ∧ more.getLast? = some b := by
  have behind (more : Text) (whole : front = piece ++ e :: more) (rest : s = more ++ t) :
      ∃ more, front = piece ++ e :: more ∧ s = more ++ t ∧ more.getLast? = some b := by
    refine ⟨more, whole, rest, ?_⟩
    rw [whole] at ends
    cases more with
    | nil => exact absurd (by simpa using ends) apart
    | cons c more => simpa using ends
  rcases List.append_eq_append_iff.mp split with ⟨middle, rfl, rest⟩ | ⟨middle, rfl, rest⟩
  · cases middle with
    | nil =>
      rw [List.nil_append] at rest
      exact absurd (closing e (by rw [← rest]; exact List.mem_cons_self)) other
    | cons c more =>
      obtain ⟨rfl, tail⟩ := List.cons.inj rest
      exact behind more rfl tail
  · exact absurd (closing e (by rw [rest]; simp)) other

section
variable {front t : Text} {b : Char} (ends : front.getLast? = some b) (parts : PartsKeyword b)
include ends parts

-- The next character is the last one of the front, or the front goes on behind it.
theorem shared_character {c : Char} {s t' : Text} (split : c :: s = front ++ t)
    (inner : ∀ {more : Text}, s = more ++ t → more.getLast? = some b →
      Shared t t' (c :: s) (c :: (more ++ t'))) : Shared t t' (c :: s) (front ++ t') := by
  cases front with
  | nil => cases ends
  | cons d more =>
    obtain ⟨rfl, tail⟩ := List.cons.inj split
    cases more with
    | nil =>
      cases ends
      rw [tail]
      exact .last parts
    | cons e more => exact inner tail (by simpa using ends)

theorem shared_of_free (free : CommentFree (front ++ t)) (closing : ∀ c ∈ t, c = '\x7d')
    (inhabited : t ≠ []) (t' : Text) : Shared t t' (front ++ t) (front ++ t') := by
  have apart {e : Char} (solid : isSpace e = false) (other : e ≠ '\x7b' ∧ e ≠ '\x7d') : e ≠ b := by
    rintro rfl
    rcases parts with space | rfl | rfl
    · rw [solid] at space
      cases space
    · exact other.1 rfl
    · exact other.2 rfl
  generalize split : front ++ t = whole at free
  induction free generalizing front with
  | blanks all =>
    obtain ⟨c, rest, rfl⟩ := List.exists_cons_of_ne_nil inhabited
    have brace := closing c List.mem_cons_self
    have blank := all c (by rw [← split]; simp)
    rw [brace] at blank
    cases blank
  | space kind rest ih =>
    exact shared_character ends parts split.symm fun tail ends => .space kind (ih ends tail.symm)
  | bare kind rest ih =>
    exact shared_character ends parts split.symm fun tail ends => .bare kind (ih ends tail.symm)
  | @iri body s inside rest ih =>
    obtain ⟨more, rfl, tail, ends⟩ := @piece_in_front ('<' :: body) front s t '>' b split.symm
      closing (by decide) ends (apart (by decide) (by decide))
    rw [List.cons_append, List.cons_append, List.append_assoc]
    exact .iri inside (ih ends tail.symm)
  | @quoted quote body s mark absent rest ih =>
    have other : isSpace quote = false ∧ quote ≠ '\x7b' ∧ quote ≠ '\x7d' := by
      rcases mark with rfl | rfl <;> decide
    obtain ⟨more, rfl, tail, ends⟩ := @piece_in_front (quote :: body) front s t quote b split.symm
      closing other.2.2 ends (apart other.1 other.2)
    rw [List.cons_append, List.cons_append, List.append_assoc]
    exact .quoted mark absent (ih ends tail.symm)

end

/-! ### Groups with a construct that they may not hold -/

-- The text ends where an element of a group may begin: with the groups closed that are open there,
-- it is read to its end as a query.
def AwaitsElement (front : Text) : Prop :=
  ∃ depth q, 0 < depth ∧ selectQuery (front ++ List.replicate depth '\x7d') = .ok (q, [])

section
variable {construct : Text × String} (member : construct ∈ unsupported) {word : Text}
  (same : IsKeyword construct.1 word)
include member same

theorem construct_ends_group {rest : Text}
    (ends : ∀ c ∈ rest.head?, isNameChar c = false ∧ c ≠ ':') (n : Nat) :
    elementsUpTo (n + 1) (word ++ rest) = .error (.final [⟨construct.2, word ++ rest⟩]) := by
  have stays := (unread_construct member same ends).stays
  have found := unsupported_found member same ends
  obtain ⟨c, tail, _, _, rfl, _, _, letter⟩ := keyword_head (unsupported_apart _ member).1 same
  rw [List.cons_append] at stays found ⊢
  rw [elements_round n stays, elementRound, found, if_neg (letter_other letter (by decide))]

theorem construct_ends_query {front rest : Text} {b : Char} (awaits : AwaitsElement front)
    (last : front.getLast? = some b) (parts : PartsKeyword b)
    (ends : ∀ c ∈ rest.head?, isNameChar c = false ∧ c ≠ ':') :
    ∃ trace, parseQuery (front ++ (word ++ rest)) =
      .error (⟨construct.2, word ++ rest⟩ :: trace) := by
  obtain ⟨depth, q, positive, read⟩ := awaits
  have shared := shared_of_free last parts ((moves_query read).free (.blanks (by simp)))
    (fun c => List.eq_of_mem_replicate) (by simp [positive.ne']) (word ++ rest)
  cases depth with
  | zero => cases positive
  | succ depth =>
    rw [List.replicate_succ] at read shared
    have here := unread_close (List.replicate depth '\x7d')
    have there := unread_construct member same ends
    have parallel := shared_parallel here there
    have stopped (n : Nat) : ∃ entry trace, entry = ⟨construct.2, word ++ rest⟩ ∧
        elementsUpTo (n + 1) (word ++ rest) = .error (.final (entry :: trace)) :=
      ⟨_, [], rfl, construct_ends_group member same ends n⟩
    have agree := parallel.alike_query (shared_rounds stopped) (parallel.waits (.inl shared))
    rw [read] at agree
    generalize result : selectQuery (front ++ (word ++ rest)) = x at agree
    cases agree with
    | reads behind =>
      rcases behind with shared | ⟨closed, _⟩
      · cases shared
      · cases closed
    | @stops _ _ trace stop =>
      subst stop
      exact ⟨trace, by rw [parseQuery, result]; rfl⟩

end

-- An element that begins with a prefixed name is a block of triples, whatever the prefix spells.
theorem prefixed_element {label gap : Text} (plain : IsLabel label) (blanks : Blanks gap)
    (behind : Text) (n : Nat) :
    elementsUpTo (n + 1) (gap ++ (label ++ ':' :: behind)) =
      triplesBlock n (label ++ ':' :: behind) := by
  have supported : unsupported? (label ++ ':' :: behind) = none :=
    unsupported_none fun word letters _ => keyword_fails_label letters plain behind
  have no_minus : Fails (keyword "MINUS") (label ++ ':' :: behind) :=
    keyword_fails_label (by decide) plain behind
  obtain ⟨c, tail, head, kind⟩ := label_head plain behind
  have opens : opensName c := by
    rcases kind with rfl | kind
    · decide
    · simp [opensName, kind]
  have stays : (c :: tail).dropWhile isSpace = c :: tail :=
    List.dropWhile_cons_of_neg (by simp [opens_name_solid opens])
  rw [head] at supported no_minus ⊢
  obtain ⟨trace, halts⟩ := spaced_fails (by rwa [stays] : Fails _ ((c :: tail).dropWhile isSpace))
  rw [elements_round n (by rw [blanks_dropped blanks, stays]), elementRound, supported, halts,
    if_neg (opens_name_other opens (by decide))]
  dsimp only
  rw [if_neg (opens_name_other opens (by decide)), if_neg (opens_name_other opens (by decide))]

-- The keyword of an unsupported construct is reported wherever an element may begin, at the text
-- that it stands at; a prefixed name with such a prefix is read as the subject of triples.
theorem unsupported_reported {construct : Text × String} (member : construct ∈ unsupported)
    {word : Text} (same : IsKeyword construct.1 word) :
    (∀ front rest, AwaitsElement front → (∃ b ∈ front.getLast?, PartsKeyword b) →
      (∀ c ∈ rest.head?, isNameChar c = false ∧ c ≠ ':') →
      ∃ trace, parseQuery (front ++ (word ++ rest)) =
        .error (⟨construct.2, word ++ rest⟩ :: trace)) ∧
    ∀ n gap behind, Blanks gap →
      elementsUpTo (n + 1) (gap ++ (word ++ ':' :: behind)) =
        triplesBlock n (word ++ ':' :: behind) ∧
      ∃ name rest, localPart behind = .ok (name, rest) ∧
        namedTerm (word ++ ':' :: behind) = .ok (.prefixed word name, rest) := by
  have letters := (unsupported_apart construct member).1
  have plain := keyword_label letters same
  constructor
  · rintro front rest awaits ⟨b, last, parts⟩ ends
    exact construct_ends_query member same awaits last parts ends
  · intro n gap behind blanks
    have start : word.head? ≠ some '-' := by
      intro head
      exact absurd (keyword_letters letters same '-' (List.mem_of_head? head)) (by decide)
    exact ⟨prefixed_element plain blanks behind n, _, _, rfl, prefixed_named plain start rfl⟩

-- A prefix and a literal that spell keywords, a group and a semicolon in front of a `MINUS` block.
def minusFront : Text :=
  "PREFIX filter: <u#>SELECT*\x7b?x filter:p 'bind \x7d ' . \x7b?x a ?y\x7d MINUS\x7b?x <q> ?z ;\n"

theorem optional_in_minus_reported :
    (∃ trace, parseQuery (minusFront ++ (("oPTIONal" : Text) ++ ("\x7b ?y" : Text))) =
      .error (⟨"OPTIONAL graph patterns are not supported", "oPTIONal\x7b ?y"⟩ :: trace)) ∧
    elementsUpTo 1 ("optional:p ?y ?z" : Text) = triplesBlock 0 ("optional:p ?y ?z" : Text) ∧
      namedTerm ("optional:p ?y ?z" : Text) = .ok (.prefixed "optional" "p", " ?y ?z") := by
  have member : (("OPTIONAL" : Text), "OPTIONAL graph patterns are not supported") ∈ unsupported :=
    List.mem_cons_self
  have read : (selectQuery (minusFront ++ List.replicate 2 '\x7d')).toOption.map Prod.snd =
      some [] := by
    decide +kernel
  have awaits : AwaitsElement minusFront := by
    cases result : selectQuery (minusFront ++ List.replicate 2 '\x7d') with
    | error halt =>
      rw [result] at read
      cases read
    | ok found =>
      obtain ⟨q, rest⟩ := found
      rw [result] at read
      cases read
      exact ⟨2, q, by decide, result⟩
  have ends : ∀ c ∈ ("\x7b ?y" : Text).head?, isNameChar c = false ∧ c ≠ ':' := by
    intro c head
    cases head
    decide
  constructor
  · exact (@unsupported_reported _ member "oPTIONal" (by decide)).1 minusFront "\x7b ?y" awaits
      ⟨'\n', by decide +kernel, .inl rfl⟩ ends
  · obtain ⟨element, name, rest, split, read⟩ :=
      (@unsupported_reported _ member ("optional" : Text) (by decide)).2 0 [] ("p ?y ?z" : Text)
        (by simp [Blanks])
    cases split
    exact ⟨element, read⟩

end TripleTable.Sparql
