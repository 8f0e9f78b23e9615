import Mathlib.Data.List.DropRight
import TripleTable.Proofs.Sparql.Reading
import TripleTable.Proofs.Sparql.Writing
import TripleTable.Proofs.Text.Characters
set_option autoImplicit false

/-!
Single tokens: each is read in full in front of whatever may stand behind a token, and refused by
the readers for tokens of other kinds.
-/
namespace TripleTable.Sparql
open Reader

/-! ### What stands behind a token -/

-- A period may belong to the text in front of it, so what follows the periods counts too.
def Stops : Text → Prop
  | [] => True
  | c :: rest => isSpace c ∨ c = ',' ∨ c = ';' ∨ (c = '.' ∧ Stops rest)

theorem follows_stops {tokens : List Text} {s : Text} (follows : Follows tokens s) : Stops s := by
  induction follows with
  | @nil s blanks =>
    cases s with
    | nil => trivial
    | cons c s => exact .inl (blanks c (by simp))
  | @cons gap token tokens s blanks mark _ ih =>
    cases gap with
    | nil =>
      rcases mark rfl with rfl | rfl | rfl
      · exact .inr (.inr (.inr ⟨rfl, ih⟩))
      · exact .inr (.inl rfl)
      · exact .inr (.inr (.inl rfl))
    | cons c gap => exact .inl (blanks c (by simp))

def stopChars : List Char := [' ', '\t', '\r', '\n', ',', ';', '.']

theorem space_stop {c : Char} (space : isSpace c) : c ∈ stopChars :=
  List.mem_append_left [',', ';', '.'] (space_listed space)

theorem stops_head {rest : Text} (stops : Stops rest) : ∀ c ∈ rest.head?, c ∈ stopChars := by
  intro c head
  cases rest with
  | nil => cases head
  | cons d rest =>
    cases head
    rcases stops with space | rfl | rfl | ⟨rfl, _⟩
    · exact space_stop space
    all_goals decide

/-! ### Reading and refusing -/

def Solid (token : Text) : Prop := ∃ c rest, token = c :: rest ∧ isSpace c = false

structure Reads {α : Type} (r : Reader α) (token : Text) (value : α) : Prop where
  solid : Solid token
  read : ∀ rest, Stops rest → r (token ++ rest) = .ok (value, rest)

structure Refuses {α : Type} (r : Reader α) (token : Text) : Prop where
  solid : Solid token
  fails : ∀ rest, Stops rest → Fails r (token ++ rest)

-- The tokens that a text goes on with, whether or not the gap in front of them was read.
def Begins (tokens : List Text) (s : Text) : Prop :=
  ∃ t, Follows tokens t ∧ s.dropWhile isSpace = t.dropWhile isSpace

theorem follows_begins {tokens : List Text} {s : Text} (follows : Follows tokens s) :
    Begins tokens s := ⟨s, follows, rfl⟩

section
variable {tokens : List Text} {gap s : Text}

theorem blanks_dropped (blanks : Blanks gap) (s : Text) :
    (gap ++ s).dropWhile isSpace = s.dropWhile isSpace :=
  List.dropWhile_append_of_pos blanks

theorem laid_out_begins (laid_out : LaidOut tokens s) : Begins tokens s := by
  cases laid_out with
  | nil blanks => exact follows_begins (.nil blanks)
  | @cons gap token tokens s blanks follows =>
    have longer : Blanks (' ' :: gap) := by
      intro c member
      rcases List.mem_cons.mp member with rfl | inside
      · rfl
      · exact blanks c inside
    refine ⟨_, .cons longer (by simp) follows, ?_⟩
    rw [blanks_dropped blanks, blanks_dropped longer]

theorem begins_dropped (begins : Begins tokens s) : Begins tokens (s.dropWhile isSpace) := by
  obtain ⟨t, follows, same⟩ := begins
  exact ⟨t, follows, by rw [List.dropWhile_idempotent, same]⟩

theorem begins_token {token : Text} (solid : Solid token) (begins : Begins (token :: tokens) s) :
    ∃ rest, s.dropWhile isSpace = token ++ rest ∧ Follows tokens rest ∧ rest.length < s.length := by
  obtain ⟨t, follows, same⟩ := begins
  obtain ⟨c, more, rfl, not_space⟩ := solid
  cases follows with
  | @cons gap _ _ rest blanks _ follows =>
    rw [blanks_dropped blanks, List.cons_append, List.dropWhile_cons_of_neg (by simp [not_space])]
      at same
    refine ⟨rest, same, follows, ?_⟩
    have shorter := (List.dropWhile_suffix isSpace (l := s)).length_le
    rw [same, List.length_cons, List.length_append] at shorter
    omega

theorem spaced_read_to {α : Type} {r : Reader α} {token : Text} {value : α}
    (reads : Reads r token value) (begins : Begins (token :: tokens) s) :
    ∃ rest, spaced r s = .ok (value, rest.dropWhile isSpace) ∧ Follows tokens rest ∧
      rest.length < s.length := by
  obtain ⟨rest, here, follows, shorter⟩ := begins_token reads.solid begins
  refine ⟨rest, spaced_ok ?_, follows, shorter⟩
  rw [here]
  exact reads.read rest (follows_stops follows)

theorem spaced_read {α : Type} {r : Reader α} {token : Text} {value : α}
    (reads : Reads r token value) (begins : Begins (token :: tokens) s) :
    ∃ rest, spaced r s = .ok (value, rest) ∧ Begins tokens rest ∧ rest.length < s.length := by
  obtain ⟨rest, read, follows, shorter⟩ := spaced_read_to reads begins
  refine ⟨rest.dropWhile isSpace, read, begins_dropped (follows_begins follows), ?_⟩
  have less := (List.dropWhile_suffix isSpace (l := rest)).length_le
  omega

theorem spaced_refused {α : Type} {r : Reader α} {token : Text} (refuses : Refuses r token)
    (begins : Begins (token :: tokens) s) : Fails (spaced r) s := by
  obtain ⟨rest, here, follows, _⟩ := begins_token refuses.solid begins
  apply spaced_fails
  rw [here]
  exact refuses.fails rest (follows_stops follows)

end
/-! ### Keywords -/

def isWord (word : Text) : Bool := !word.isEmpty && word.all fun c => c.toLower.isAlpha

theorem letter_of_lower {c d : Char} (same : c.toLower = d.toLower) (letter : d.toLower.isAlpha) :
    c.isAlpha := by
  rw [← same] at letter
  by_cases upper : c.isUpper
  · exact Bool.or_eq_true_iff.mpr (.inl upper)
  · have kept : c.toLower = c := dif_neg fun both => upper (decide_eq_true both)
    rwa [kept] at letter

theorem keyword_head {word token : Text} (letters : isWord word) (same : IsKeyword word token) :
    ∃ c rest w more, token = c :: rest ∧ word = w :: more ∧ c.toLower = w.toLower ∧
      c.isAlpha := by
  cases word with
  | nil => cases letters
  | cons w more =>
    cases token with
    | nil => cases same
    | cons c rest =>
      simp only [IsKeyword, Text.asciiLower, List.map_cons, List.cons.injEq] at same
      simp only [isWord, List.all_cons, Bool.and_eq_true] at letters
      exact ⟨c, rest, w, more, rfl, rfl, same.1, letter_of_lower same.1 letters.2.1⟩

theorem keyword_letters {word token : Text} (letters : isWord word) (same : IsKeyword word token) :
    ∀ c ∈ token, c.isAlpha := by
  simp only [isWord, Bool.and_eq_true, List.all_eq_true] at letters
  intro c member
  have lower : c.toLower ∈ Text.asciiLower word := by
    rw [← same]
    exact List.mem_map_of_mem member
  obtain ⟨d, inside, equal⟩ := List.mem_map.mp lower
  exact letter_of_lower equal.symm (letters.2 d inside)

theorem letter_other {c d : Char} (letter : c.isAlpha) (not : d.isAlpha = false) : c ≠ d := by
  rintro rfl
  rw [letter] at not
  cases not

theorem letter_not_space {c : Char} (letter : c.isAlpha) : isSpace c = false := by
  have none : ∀ d ∈ [' ', '\t', '\r', '\n'], d.isAlpha = false := each_char (by decide)
  cases space : isSpace c with
  | false => rfl
  | true => exact absurd rfl (letter_other letter (none c (space_listed space)))

theorem after_keyword {word token : Text} (same : IsKeyword word token) (rest : Text) :
    Text.afterNoCase? word (token ++ rest) = some rest := by
  induction word generalizing token with
  | nil =>
    cases token with
    | nil => rfl
    | cons c token => cases same
  | cons w word ih =>
    cases token with
    | nil => cases same
    | cons c token =>
      simp only [IsKeyword, Text.asciiLower, List.map_cons, List.cons.injEq] at same
      rw [List.cons_append, Text.afterNoCase?, if_pos same.1.symm]
      exact ih same.2

theorem stop_not_name {c : Char} (stop : c ∈ stopChars) : isNameChar c = false ∧ c ≠ ':' := by
  have none : ∀ d ∈ stopChars, isNameChar d = false ∧ d ≠ ':' := each_char (by decide)
  exact none c stop

theorem keyword_ok {word token rest : Text} (same : IsKeyword word token)
    (ends : ∀ c ∈ rest.head?, isNameChar c = false ∧ c ≠ ':') :
    keyword word (token ++ rest) = .ok ((), rest) := by
  cases rest with
  | nil => simp only [keyword, after_keyword same]
  | cons c rest => simp [keyword, after_keyword same, ends c rfl]

theorem keyword_read {word token : Text} (letters : isWord word) (same : IsKeyword word token) :
    Reads (keyword word) token () := by
  constructor
  · obtain ⟨c, rest, _, _, rfl, _, _, letter⟩ := keyword_head letters same
    exact ⟨c, rest, rfl, letter_not_space letter⟩
  · exact fun rest stops => keyword_ok same fun c head => stop_not_name (stops_head stops c head)

theorem keyword_fails_head {w c : Char} {word s : Text} (other : w.toLower ≠ c.toLower) :
    Fails (keyword (w :: word)) (c :: s) := by
  refine ⟨[unexpected (c :: s)], ?_⟩
  simp only [keyword, Text.afterNoCase?, if_neg other]

theorem keyword_fails_symbol {word : Text} (letters : isWord word) {c : Char}
    (symbol : c.isAlpha = false) (s : Text) : Fails (keyword word) (c :: s) := by
  cases word with
  | nil => cases letters
  | cons w word =>
    simp only [isWord, List.all_cons, Bool.and_eq_true] at letters
    apply keyword_fails_head
    intro same
    rw [letter_of_lower same.symm letters.2.1] at symbol
    cases symbol

-- Two keywords with different first letters.
theorem keyword_fails_keyword {word other token : Text} (letters : isWord word)
    (others : isWord other) (apart : word.head?.map Char.toLower ≠ other.head?.map Char.toLower)
    (same : IsKeyword other token) (s : Text) : Fails (keyword word) (token ++ s) := by
  obtain ⟨c, rest, w, more, rfl, rfl, lower, _⟩ := keyword_head others same
  cases word with
  | nil => cases letters
  | cons v word =>
    apply keyword_fails_head
    intro equal
    exact apart (by simp [equal, lower])

theorem after_no_case_label {word label rest more : Text}
    (letters : word.all fun c => c.toLower.isAlpha)
    (found : Text.afterNoCase? word (label ++ ':' :: rest) = some more) :
    ∃ tail, more = tail ++ ':' :: rest ∧ tail <:+ label := by
  induction word generalizing label with
  | nil =>
    cases found
    exact ⟨label, rfl, List.suffix_refl label⟩
  | cons w word ih =>
    simp only [List.all_cons, Bool.and_eq_true] at letters
    cases label with
    | nil =>
      rw [List.nil_append, Text.afterNoCase?] at found
      split at found
      · rename_i same
        exact absurd (letter_of_lower same.symm letters.1) (by decide)
      · cases found
    | cons c label =>
      rw [List.cons_append, Text.afterNoCase?] at found
      split at found
      · obtain ⟨tail, split, suffix⟩ := ih letters.2 found
        exact ⟨tail, split, suffix.trans (List.suffix_cons c label)⟩
      · cases found

-- A keyword never ends inside a prefixed name: what follows it there is a name or a colon.
theorem keyword_fails_label {word label : Text} (letters : isWord word) (plain : IsLabel label)
    (s : Text) : Fails (keyword word) (label ++ ':' :: s) := by
  simp only [isWord, Bool.and_eq_true] at letters
  cases found : Text.afterNoCase? word (label ++ ':' :: s) with
  | none => exact ⟨[unexpected (label ++ ':' :: s)], by simp only [keyword, found]⟩
  | some more =>
    obtain ⟨tail, rfl, suffix⟩ := after_no_case_label letters.2 found
    cases tail with
    | nil => exact ⟨[unexpected (':' :: s)], by simp [keyword, found]⟩
    | cons c tail =>
      have name : isNameChar c := plain c (suffix.subset (by simp))
      exact ⟨[unexpected (c :: (tail ++ ':' :: s))], by simp [keyword, found, name]⟩

theorem keyword_refused {word other token : Text} (letters : isWord word) (others : isWord other)
    (apart : word.head?.map Char.toLower ≠ other.head?.map Char.toLower)
    (same : IsKeyword other token) : Refuses (keyword word) token :=
  ⟨(keyword_read others same).solid,
    fun rest _ => keyword_fails_keyword letters others apart same rest⟩

/-! ### Names -/

-- How a variable, an IRI or a prefixed name begins.
def opensName (c : Char) : Bool := c == '?' || c == '$' || c == '<' || c == ':' || isNameChar c

theorem opens_name_other {c d : Char} (opens : opensName c) (not : opensName d = false) :
    c ≠ d := by
  rintro rfl
  rw [opens] at not
  cases not

theorem opens_name_solid {c : Char} (opens : opensName c) : isSpace c = false := by
  have other : ∀ d, opensName d = false → c ≠ d := fun d => opens_name_other opens
  simp only [isSpace, Bool.or_eq_false_iff, beq_eq_false_iff_ne]
  exact ⟨⟨⟨other _ (by decide), other _ (by decide)⟩, other _ (by decide)⟩, other _ (by decide)⟩

theorem label_head {label : Text} (plain : IsLabel label) (s : Text) :
    ∃ c rest, label ++ ':' :: s = c :: rest ∧ (c = ':' ∨ isNameChar c) := by
  cases label with
  | nil => exact ⟨':', s, rfl, .inl rfl⟩
  | cons c label => exact ⟨c, label ++ ':' :: s, rfl, .inr (plain c (by simp))⟩

namespace Term

theorem NameSpelled.head {term : Term} {token : Text} (spelled : NameSpelled term token) :
    ∃ c rest, token = c :: rest ∧ opensName c := by
  cases spelled with
  | «variable» spelled =>
    obtain ⟨_, sigil, rfl | rfl, rfl⟩ := spelled <;> exact ⟨_, _, rfl, by decide⟩
  | iri spelled =>
    obtain ⟨_, rfl⟩ := spelled
    exact ⟨_, _, rfl, by decide⟩
  | @«prefixed» label name plain _ _ =>
    obtain ⟨c, rest, head, kind⟩ := label_head plain name
    refine ⟨c, rest, head, ?_⟩
    rcases kind with rfl | kind
    · decide
    · simp [opensName, kind]

theorem NameSpelled.solid {term : Term} {token : Text} (spelled : NameSpelled term token) :
    Solid token := by
  obtain ⟨c, rest, rfl, opens⟩ := spelled.head
  exact ⟨c, rest, rfl, opens_name_solid opens⟩

-- No keyword is read at the beginning of a name.
theorem NameSpelled.not_keyword {term : Term} {token word : Text}
    (spelled : NameSpelled term token) (letters : isWord word) (s : Text) :
    Fails (keyword word) (token ++ s) := by
  cases spelled with
  | «variable» spelled =>
    obtain ⟨_, sigil, rfl | rfl, rfl⟩ := spelled
    · exact keyword_fails_symbol letters (by decide) _
    · exact keyword_fails_symbol letters (by decide) _
  | iri spelled =>
    obtain ⟨_, rfl⟩ := spelled
    exact keyword_fails_symbol letters (by decide) _
  | «prefixed» plain _ _ =>
    rw [List.append_assoc, List.cons_append]
    exact keyword_fails_label letters plain _

end Term

theorem variable_read {name token : Text} (spelled : IsVariableToken name token) :
    Reads variableName token name := by
  obtain ⟨⟨inhabited, all⟩, sigil, kind, rfl⟩ := spelled
  constructor
  · rcases kind with rfl | rfl <;> exact ⟨_, name, rfl, by decide⟩
  · intro rest stops
    have sign : oneOf (fun c => c == '?' || c == '$') (sigil :: (name ++ rest)) =
        .ok (sigil, name ++ rest) := by
      rcases kind with rfl | rfl <;> rfl
    have none : ∀ d ∈ stopChars, isVariableChar d = false := each_char (by decide)
    rw [List.cons_append, variableName, bind_ok sign]
    exact run1_ok inhabited all fun c head => none c (stops_head stops c head)

theorem variable_fails {c : Char} (other : c ≠ '?' ∧ c ≠ '$') (s : Text) :
    Fails variableName (c :: s) := by
  apply bind_fails
  exact ⟨[unexpected (c :: s)], by simp [oneOf, other]⟩

theorem iri_ok {body : Text} (inside : ∀ c ∈ body, isIriChar c) (rest : Text) :
    iriRef ('<' :: (body ++ '>' :: rest)) = .ok (body, rest) := by
  have closes : ∀ c ∈ ('>' :: rest).head?, isIriChar c = false := by
    intro c head
    cases head
    decide
  rw [iriRef, bind_ok (char_ok _ _), bind_ok (run_ok inside closes), bind_ok (char_ok _ _),
    pure_run]

theorem iri_read {iri token : Text} (spelled : IsIriToken iri token) :
    Reads iriRef token iri := by
  obtain ⟨all, rfl⟩ := spelled
  refine ⟨⟨'<', iri ++ ['>'], rfl, by decide⟩, ?_⟩
  intro rest _
  rw [List.cons_append, List.append_assoc, List.singleton_append]
  exact iri_ok all rest

theorem iri_fails {c : Char} (other : c ≠ '<') (s : Text) : Fails iriRef (c :: s) :=
  bind_fails (char_fails other s)

-- The dots between a local name and the stop behind it are left to the pattern.
theorem stops_dots {rest : Text} (stops : Stops rest) :
    ∃ dots more, rest = dots ++ more ∧ (∀ c ∈ dots, c = '.') ∧
      ∀ c ∈ more.head?, isLocalChar c = false := by
  have none : ∀ d ∈ stopChars, d ≠ '.' → isLocalChar d = false := each_char (by decide)
  induction rest with
  | nil => exact ⟨[], [], rfl, by simp, by simp⟩
  | cons c rest ih =>
    by_cases dot : c = '.'
    · subst dot
      have behind : Stops rest := by
        rcases stops with space | mark | mark | ⟨_, behind⟩
        · cases space
        · cases mark
        · cases mark
        · exact behind
      obtain ⟨dots, more, rfl, all, ends⟩ := ih behind
      exact ⟨'.' :: dots, more, rfl, by simpa using all, ends⟩
    · refine ⟨[], c :: rest, rfl, by simp, ?_⟩
      intro d head
      cases head
      exact none c (stops_head stops c rfl) dot

theorem dots_dropped {name dots : Text} (ends : name.getLast? ≠ some '.')
    (all : ∀ c ∈ dots, c = '.') :
    ((name ++ dots).reverse.dropWhile (· == '.')).reverse = name := by
  rw [List.reverse_append, List.dropWhile_append_of_pos (by simpa using all)]
  have stops : ∀ c ∈ name.reverse.head?, (c == '.') = false := by
    intro c head
    rw [List.head?_reverse] at head
    rw [beq_eq_false_iff_ne]
    rintro rfl
    exact ends head
  rw [(stops_run stops).2, List.reverse_reverse]

theorem local_read {name rest : Text} (plain : IsLocal name) (stops : Stops rest) :
    localPart (name ++ rest) = .ok (name, rest) := by
  obtain ⟨dots, more, rfl, all, ends⟩ := stops_dots stops
  have part : ∀ c ∈ name ++ dots, isLocalChar c := by
    intro c member
    rcases List.mem_append.mp member with inside | dot
    · exact plain.1 c inside
    · rw [all c dot]
      decide
  rw [localPart, ← List.append_assoc, (run_exact part ends).1, dots_dropped plain.2 all,
    List.append_assoc, List.drop_left]

theorem prefixed_ok {label name s rest : Text} (plain : IsLabel label)
    (start : label.head? ≠ some '-') (read : localPart s = .ok (name, rest)) :
    prefixedName (label ++ ':' :: s) = .ok ((label, name), rest) := by
  have colon : ∀ c ∈ (':' :: s).head?, isNameChar c = false := by
    intro c head
    cases head
    decide
  rw [prefixedName, (run_exact plain colon).1, (run_exact plain colon).2, if_neg start,
    bind_ok (char_ok _ _), bind_ok read, pure_run]

theorem prefixed_named {label name s rest : Text} (plain : IsLabel label)
    (start : label.head? ≠ some '-') (read : localPart s = .ok (name, rest)) :
    namedTerm (label ++ ':' :: s) = .ok (.prefixed label name, rest) := by
  obtain ⟨c, tail, head, kind⟩ := label_head plain s
  have opens : c ≠ '?' ∧ c ≠ '$' ∧ c ≠ '<' := by
    rcases kind with rfl | kind
    · decide
    · refine ⟨?_, ?_, ?_⟩ <;> rintro rfl <;> exact absurd kind (by decide)
  have named := prefixed_ok plain start read
  rw [head] at named ⊢
  rw [namedTerm, first_of_next (map_fails _ (variable_fails ⟨opens.1, opens.2.1⟩ _)),
    first_of_next (map_fails _ (iri_fails opens.2.2 _))]
  exact first_of_here (map_ok _ named)

theorem name_read {term : Term} {token : Text} (spelled : term.NameSpelled token) :
    Reads namedTerm token term := by
  refine ⟨spelled.solid, ?_⟩
  intro rest stops
  cases spelled with
  | «variable» spelled => exact first_of_here (map_ok _ ((variable_read spelled).read rest stops))
  | iri spelled =>
    have read := (iri_read spelled).read rest stops
    obtain ⟨_, rfl⟩ := spelled
    rw [List.cons_append] at read ⊢
    have sign : '<' ≠ '?' ∧ '<' ≠ '$' := by decide
    rw [namedTerm, first_of_next (map_fails _ (variable_fails sign _))]
    exact first_of_here (map_ok _ read)
  | «prefixed» plain start ending =>
    rw [List.append_assoc, List.cons_append]
    exact prefixed_named plain start (local_read ending stops)

theorem verb_read {term : Term} {token : Text} (spelled : term.VerbSpelled token) :
    Reads verb token term := by
  cases spelled with
  | name spelled =>
    refine ⟨spelled.solid, ?_⟩
    intro rest stops
    rw [verb, first_of_next (bind_fails (spelled.not_keyword (by decide) rest))]
    exact first_of_here ((name_read spelled).read rest stops)
  | rdfType same =>
    have word := keyword_read (by decide) same
    refine ⟨word.solid, ?_⟩
    intro rest stops
    exact first_of_here (by rw [bind_ok (word.read rest stops), pure_run])

/-! ### Literals -/

theorem quoted_ok {quote : Char} {lexical : Text} (absent : quote ∉ lexical) (rest : Text) :
    quoted quote (quote :: (lexical ++ quote :: rest)) = .ok (lexical, rest) := by
  have inside : ∀ c ∈ lexical, (c != quote) = true := by
    intro c member
    rw [bne_iff_ne]
    rintro rfl
    exact absent member
  have closes : ∀ c ∈ (quote :: rest).head?, (c != quote) = false := by
    intro c head
    cases head
    simp
  rw [quoted, bind_ok (char_ok _ _), bind_ok (run_ok inside closes), bind_ok (char_ok _ _),
    pure_run]

theorem quoted_fails {quote c : Char} (other : c ≠ quote) (s : Text) :
    Fails (quoted quote) (c :: s) := bind_fails (char_fails other s)

theorem suffix_fails {rest : Text} (stops : Stops rest) : Fails stringSuffix rest := by
  have none : ∀ d ∈ stopChars, d ≠ '@' ∧ d ≠ '^' := each_char (by decide)
  cases rest with
  | nil => exact two_fail (bind_fails ⟨_, rfl⟩) (bind_fails ⟨_, rfl⟩)
  | cons c rest =>
    obtain ⟨not_at, not_caret⟩ := none c (stops_head stops c rfl)
    have text : Fails (Reader.text ("^^" : Text)) (c :: rest) :=
      ⟨[unexpected (c :: rest)], by simp [Reader.text, Text.after?, Ne.symm not_caret]⟩
    exact two_fail (bind_fails (char_fails not_at rest)) (bind_fails text)

theorem string_ok {quote : Char} {lexical rest : Text} (plain : IsQuoteOf quote lexical)
    (stops : Stops rest) :
    stringLiteral (quote :: (lexical ++ quote :: rest)) = .ok (lexical, rest) := by
  have body : firstOf [quoted '"', quoted '\''] (quote :: (lexical ++ quote :: rest)) =
      .ok (lexical, rest) := by
    rcases plain with ⟨rfl | rfl, absent⟩
    · exact first_of_here (quoted_ok absent rest)
    · have other : '\'' ≠ '"' := by decide
      rw [first_of_next (quoted_fails other _)]
      exact first_of_here (quoted_ok absent rest)
  rw [stringLiteral, bind_ok body, bind_ok (optional_fails (suffix_fails stops)), pure_run]

theorem string_fails {c : Char} (other : c ≠ '"' ∧ c ≠ '\'') (s : Text) :
    Fails stringLiteral (c :: s) := by
  apply bind_fails
  exact two_fail (quoted_fails other.1 s) (quoted_fails other.2 s)

theorem object_read {term : Term} {token : Text} (spelled : term.ObjectSpelled token) :
    Reads objectTerm token term := by
  cases spelled with
  | name spelled =>
    refine ⟨spelled.solid, ?_⟩
    intro rest stops
    have read := (name_read spelled).read rest stops
    obtain ⟨c, tail, rfl, opens⟩ := spelled.head
    have other : c ≠ '"' ∧ c ≠ '\'' :=
      ⟨opens_name_other opens (by decide), opens_name_other opens (by decide)⟩
    rw [List.cons_append] at read ⊢
    rw [objectTerm, first_of_next (map_fails _ (string_fails other _))]
    exact first_of_here read
  | @literal quote lexical plain =>
    have solid : isSpace quote = false := by
      rcases plain.1 with rfl | rfl <;> decide
    refine ⟨⟨quote, lexical ++ [quote], rfl, solid⟩, ?_⟩
    intro rest stops
    rw [List.cons_append, List.append_assoc, List.singleton_append]
    exact first_of_here (map_ok _ (string_ok plain stops))

/-! ### Marks, and what is no verb -/

theorem mark_read {c : Char} (solid : isSpace c = false) : Reads (char c) [c] () :=
  ⟨⟨c, [], rfl, solid⟩, fun rest _ => char_ok c rest⟩

theorem mark_refused {c d : Char} {rest : Text} (solid : isSpace d = false) (other : d ≠ c) :
    Refuses (char c) (d :: rest) :=
  ⟨⟨d, rest, rfl, solid⟩, fun more _ => char_fails other (rest ++ more)⟩

theorem label_missing {label s : Text} (plain : IsLabel label) (start : label.head? ≠ some '-')
    (ends : ∀ c ∈ s.head?, isNameChar c = false ∧ c ≠ ':') : Fails prefixedName (label ++ s) := by
  have stops := run_exact plain fun c head => (ends c head).1
  obtain ⟨trace, halts⟩ : Fails (char ':') s := by
    cases s with
    | nil => exact ⟨_, rfl⟩
    | cons c s => exact char_fails (ends c rfl).2 s
  refine ⟨trace, ?_⟩
  rw [prefixedName, stops.1, stops.2, if_neg start, bind_error halts]

theorem name_fails {c : Char} {s : Text} (other : c ≠ '?' ∧ c ≠ '$' ∧ c ≠ '<')
    (no_label : Fails prefixedName (c :: s)) : Fails namedTerm (c :: s) := by
  apply first_of_fails
  simp only [List.forall_mem_cons, List.not_mem_nil, false_implies, implies_true, and_true]
  exact ⟨map_fails _ (variable_fails ⟨other.1, other.2.1⟩ s), map_fails _ (iri_fails other.2.2 s),
    map_fails _ no_label⟩

theorem verb_fails {s : Text} (no_word : Fails (keyword "a") s) (no_name : Fails namedTerm s) :
    Fails verb s := two_fail (bind_fails no_word) no_name

theorem verb_refuses_symbol {c : Char} (solid : isSpace c = false) (symbol : c.isAlpha = false)
    (closed : opensName c = false) : Refuses verb [c] := by
  refine ⟨⟨c, [], rfl, solid⟩, ?_⟩
  intro rest _
  simp only [opensName, Bool.or_eq_false_iff, beq_eq_false_iff_ne] at closed
  obtain ⟨⟨⟨⟨not_question, not_dollar⟩, not_angle⟩, not_colon⟩, not_name⟩ := closed
  refine verb_fails (keyword_fails_symbol (by decide) symbol rest)
    (name_fails ⟨not_question, not_dollar, not_angle⟩ ?_)
  have empty : IsLabel [] := by simp [IsLabel]
  apply label_missing empty (by simp)
  intro d head
  cases head
  exact ⟨not_name, not_colon⟩

theorem letter_name {c : Char} (letter : c.isAlpha) : isNameChar c := by
  simp [isNameChar, isAlphanumeric, Char.isAlphanum, letter]

theorem keyword_label {word token : Text} (letters : isWord word) (same : IsKeyword word token) :
    IsLabel token :=
  fun c member => letter_name (keyword_letters letters same c member)

theorem verb_refuses_keyword {word token : Text} (letters : isWord word)
    (apart : word.head?.map Char.toLower ≠ some 'a') (same : IsKeyword word token) :
    Refuses verb token := by
  refine ⟨(keyword_read letters same).solid, ?_⟩
  intro rest stops
  have plain := keyword_label letters same
  have first : ("a" : Text).head?.map Char.toLower ≠ word.head?.map Char.toLower := Ne.symm apart
  refine verb_fails (keyword_fails_keyword (by decide) letters first same rest) ?_
  obtain ⟨c, tail, _, _, rfl, _, _, letter⟩ := keyword_head letters same
  have other : ∀ d : Char, d.isAlpha = false → c ≠ d := fun d => letter_other letter
  have start : (c :: tail).head? ≠ some '-' := by
    intro dash
    exact other '-' (by decide) (Option.some.inj dash)
  exact name_fails ⟨other _ (by decide), other _ (by decide), other _ (by decide)⟩
    (label_missing plain start fun d head => stop_not_name (stops_head stops d head))

end TripleTable.Sparql
