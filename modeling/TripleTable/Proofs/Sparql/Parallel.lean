import Mathlib.Data.List.Find
import TripleTable.Proofs.Sparql.Agreement
import TripleTable.Proofs.Sparql.Literals
set_option autoImplicit false

/-!
The reading of a query on two texts that run in parallel: from the terms up to the whole query it is
alike on both, if it is so for what a term quotes and where an element of a group begins.
-/
namespace TripleTable.Sparql
open Reader

def writtenWords : List Text :=
  ["a", "true", "false", "MINUS", "BASE", "PREFIX", "SELECT", "DISTINCT", "REDUCED", "WHERE"]

def declaredLabel : Reader Text := do
  let label ← run isNameChar
  char ':'
  return label

-- Neither a token nor a blank begins here, and a group is not opened.
structure Unread (s : Text) : Prop where
  stays : s.dropWhile isSpace = s
  mark : ∀ c ∈ [',', ';', '*', '\x7b'], Fails (char c) s
  word : ∀ word ∈ writtenWords, Fails (keyword word) s
  sigil : Fails variableName s
  iri : Fails iriRef s
  label : Fails prefixedName s
  declared : Fails declaredLabel s
  quote : ∀ {quote}, quote = '"' ∨ quote = '\'' → Fails (quoted quote) s
  number : Fails numericLiteral s

theorem Unread.named {s : Text} (unread : Unread s) : Fails namedTerm s := by
  apply first_of_fails
  simp only [List.forall_mem_cons, List.not_mem_nil, false_implies, implies_true, and_true]
  exact ⟨map_fails _ unread.sigil, map_fails _ unread.iri, map_fails _ unread.label⟩

theorem Unread.verb {s : Text} (unread : Unread s) : Fails verb s :=
  two_fail (bind_fails (unread.word "a" (by decide))) unread.named

theorem matched_fails {α : Type} {r : Reader α} {s : Text} (fails : Fails r s) :
    Fails (matched r) s := by
  obtain ⟨trace, halts⟩ := fails
  exact ⟨trace, by rw [matched, halts]⟩

theorem Unread.object {s : Text} (unread : Unread s) : Fails objectTerm s := by
  have string : Fails stringLiteral s :=
    bind_fails (two_fail (unread.quote (.inl rfl)) (unread.quote (.inr rfl)))
  have boolean : Fails booleanLiteral s :=
    two_fail (matched_fails (unread.word "true" (by decide)))
      (matched_fails (unread.word "false" (by decide)))
  apply first_of_fails
  simp only [List.forall_mem_cons, List.not_mem_nil, false_implies, implies_true, and_true]
  exact ⟨map_fails _ string, unread.named, map_fails _ unread.number, map_fails _ boolean⟩

theorem Unread.modifier {s : Text} (unread : Unread s) : Fails modifier s :=
  two_fail (bind_fails (unread.word "DISTINCT" (by decide)))
    (bind_fails (unread.word "REDUCED" (by decide)))

-- A blank comes next, if anything does.
def BeginsBlank (s : Text) : Prop := ∀ c ∈ s.head?, isBlank c

theorem begins_blank_cons {c : Char} (blank : isBlank c) (s : Text) : BeginsBlank (c :: s) := by
  intro d head
  cases head
  exact blank

theorem BeginsBlank.missing {s : Text} (begins : BeginsBlank s) {c : Char}
    (solid : isBlank c = false) : Fails (char c) s := by
  apply char_missing
  intro head
  rw [begins c head] at solid
  cases solid

-- How two texts in `Inside` begin: a brace leaves them in `Start`. What a literal holds in the
-- second one is `ρ` of what it holds in the first one.
inductive Piece (Inside Start : Text → Text → Prop) (ρ : Text → Text) : Text → Text → Prop
  | plain {c : Char} {s s' : Text} (kind : isPlain c) (rest : Inside s s') :
    Piece Inside Start ρ (c :: s) (c :: s')
  | brace {c : Char} {s s' : Text} (kind : c = '\x7b' ∨ c = '\x7d') (rest : Start s s') :
    Piece Inside Start ρ (c :: s) (c :: s')
  | iri {body s s' : Text} (inside : ∀ c ∈ body, isIriChar c) (rest : Inside s s') :
    Piece Inside Start ρ ('<' :: (body ++ '>' :: s)) ('<' :: (body ++ '>' :: s'))
  | quoted {quote : Char} {body s s' : Text} (mark : quote = '"' ∨ quote = '\'')
    (absent : quote ∉ body) (absent' : quote ∉ ρ body) (rest : Inside s s') :
    Piece Inside Start ρ (quote :: (body ++ quote :: s)) (quote :: (ρ body ++ quote :: s'))
  | blank {s s' : Text} (here : BeginsBlank s) (there : BeginsBlank s') : Piece Inside Start ρ s s'

theorem bare_piece {Inside Start : Text → Text → Prop} {ρ : Text → Text} {c : Char} {s s' : Text}
    (kind : isBare c) (rest : Inside s s') (sub : Inside s s' → Start s s') :
    Piece Inside Start ρ (c :: s) (c :: s') := by
  by_cases brace : c = '\x7b' ∨ c = '\x7d'
  · exact .brace brace (sub rest)
  · obtain ⟨not_open, not_close⟩ := not_or.mp brace
    exact .plain (by simp [isPlain, kind, not_open, not_close]) rest

-- Two texts are in `Inside` within a token, and in `Start` where a token may begin.
structure Parallel (Inside Start : Text → Text → Prop) (ρ : Text → Text) : Prop where
  piece : ∀ ⦃s s'⦄, Inside s s' → Piece Inside Start ρ s s'
  kept : ∀ {s}, (∀ c ∈ s, isPlain c) → ρ s = s
  inside : ∀ ⦃s s'⦄, Inside s s' → Start s s'
  start : ∀ ⦃s s'⦄, Start s s' → Inside s s' ∨ Unread s ∧ Unread s'
  waits : ∀ ⦃s s'⦄, Start s s' → Begun Start s s'

-- Where the texts part or end, and an element of a group may begin, the elements are read alike
-- however many there may be.
def Rounds (Stop : Entry → Prop) (Inside Start : Text → Text → Prop) (ρ : Text → Text) : Prop :=
  ∀ ⦃s s'⦄, Start s s' → (Inside s s' → BeginsBlank s ∧ BeginsBlank s') →
    s.dropWhile isSpace = s → s'.dropWhile isSpace = s' →
    ∀ n n', Agree Stop Start (mapLiterals ρ) (elementsUpTo (n + 1) s) (elementsUpTo (n' + 1) s')

theorem elements_dropped (n : Nat) (s : Text) :
    elementsUpTo (n + 1) s = elementsUpTo (n + 1) (s.dropWhile isSpace) := by
  simp only [elementsUpTo, List.dropWhile_idempotent]

namespace Parallel

section
variable {Stop : Entry → Prop} {Inside Start : Text → Text → Prop} {ρ : Text → Text}
  (parallel : Parallel Inside Start ρ)
include parallel

theorem matching : Matching Inside := by
  intro s s' inside
  have closed {c : Char} (special : isPlain c = false) (s s' : Text) :
      Closed (c :: s) ∧ Closed (c :: s') := ⟨closed_cons special s, closed_cons special s'⟩
  cases parallel.piece inside with
  | plain kind rest => exact .inl ⟨_, _, _, kind, rfl, rfl, rest⟩
  | brace kind rest => exact .inr (closed (by rcases kind with rfl | rfl <;> decide) _ _)
  | iri body rest => exact .inr (closed (by decide) _ _)
  | quoted mark absent absent' rest => exact .inr (closed (quote_special mark) _ _)
  | blank here there =>
    exact .inr ⟨fun c head => blank_special (here c head),
      fun c head => blank_special (there c head)⟩

theorem alike_iri : Alike Stop Inside Inside id iriRef iriRef := by
  intro s s' inside
  have apart {c : Char} (other : c ≠ '<') (s s' : Text) :
      Agree Stop Inside id (iriRef (c :: s)) (iriRef (c :: s')) :=
    .fails (iri_fails other s) (iri_fails other s')
  cases parallel.piece inside with
  | plain kind rest => exact apart (plain_other kind (by decide)) _ _
  | brace kind rest => exact apart (by rcases kind with rfl | rfl <;> decide) _ _
  | iri body rest =>
    rw [iri_ok body, iri_ok body]
    exact .reads rest
  | quoted mark absent absent' rest =>
    exact apart (by rcases mark with rfl | rfl <;> decide) _ _
  | blank here there =>
    exact .fails (bind_fails (here.missing (by decide))) (bind_fails (there.missing (by decide)))

theorem alike_quoted {quote : Char} (mark : quote = '"' ∨ quote = '\'') :
    Alike Stop Inside Inside ρ (quoted quote) (quoted quote) := by
  intro s s' inside
  have apart {c : Char} (other : c ≠ quote) (s s' : Text) :
      Agree Stop Inside ρ (quoted quote (c :: s)) (quoted quote (c :: s')) :=
    .fails (quoted_fails other s) (quoted_fails other s')
  cases parallel.piece inside with
  | plain kind rest => exact apart (plain_other kind (quote_special mark)) _ _
  | brace kind rest =>
    exact apart (by rcases kind with rfl | rfl <;> rcases mark with rfl | rfl <;> decide) _ _
  | iri body rest => exact apart (by rcases mark with rfl | rfl <;> decide) _ _
  | @quoted other _ _ _ _ absent absent' rest =>
    by_cases same : other = quote
    · subst same
      rw [quoted_ok absent, quoted_ok absent']
      exact .reads rest
    · exact .fails (quoted_fails same _) (quoted_fails same _)
  | blank here there =>
    have solid := quote_not_blank mark
    exact .fails (bind_fails (here.missing solid)) (bind_fails (there.missing solid))

theorem alike_brace : Alike Stop Start Start id (char '\x7b') (char '\x7b') := by
  intro s s' start
  have apart {c : Char} (other : c ≠ '\x7b') (s s' : Text) :
      Agree Stop Start id (char '\x7b' (c :: s)) (char '\x7b' (c :: s')) :=
    .fails (char_fails other s) (char_fails other s')
  rcases parallel.start start with inside | ⟨unread, unread'⟩
  · cases parallel.piece inside with
    | plain kind rest => exact apart (plain_other kind (by decide)) _ _
    | brace kind rest =>
      rcases kind with rfl | rfl
      · rw [char_ok, char_ok]
        exact .reads rest
      · exact apart (by decide) _ _
    | iri body rest => exact apart (by decide) _ _
    | quoted mark absent absent' rest =>
      exact apart (by rcases mark with rfl | rfl <;> decide) _ _
    | blank here there => exact .fails (here.missing (by decide)) (there.missing (by decide))
  · exact .fails (unread.mark _ (by decide)) (unread'.mark _ (by decide))

-- Where the texts part, a reader fails on both.
theorem begins {α : Type} {φ : α → α} {r : Reader α} (alike : Alike Stop Inside Inside φ r r)
    (fails : ∀ ⦃s⦄, Unread s → Fails r s) : Alike Stop Start Start φ r r := by
  intro s s' start
  rcases parallel.start start with inside | ⟨unread, unread'⟩
  · exact (alike.out parallel.inside) inside
  · exact .fails (fails unread) (fails unread')

theorem spaced {α β : Type} {φ : α → β} {r : Reader α} {r' : Reader β}
    (alike : Alike Stop Start Start φ r r') :
    Alike Stop (Begun Start) Start φ (Reader.spaced r) (Reader.spaced r') :=
  alike.spaced parallel.waits

theorem waiting {α β : Type} {φ : α → β} {Out : Text → Text → Prop} {r : Reader α}
    {r' : Reader β} (alike : Alike Stop (Begun Start) Out φ r r') :
    Alike Stop Start Out φ r r' :=
  alike.sub parallel.waits

/-! ### Terms -/

theorem alike_variable : Alike Stop Inside Inside id variableName variableName :=
  (alike_one parallel.matching sigil_plain).then (alike_run1 parallel.matching variable_plain)

theorem alike_local : Alike Stop Inside Inside id localPart localPart := by
  intro s s' inside
  have start : ((s.takeWhile isLocalChar).reverse.dropWhile (· == '.')).reverse <+:
      s.takeWhile isLocalChar := List.rdropWhile_prefix (· == '.') _
  have same := (matching_run parallel.matching local_plain inside).1
  unfold localPart
  dsimp only
  rw [← same]
  generalize ((s.takeWhile isLocalChar).reverse.dropWhile (· == '.')).reverse = name at *
  have plain : ∀ c ∈ name, isPlain c :=
    fun c member => local_plain c (List.mem_takeWhile_imp (start.subset member))
  obtain ⟨rest, rfl⟩ := start.trans (List.takeWhile_prefix isLocalChar)
  obtain ⟨rest', rfl, behind⟩ := matching_front parallel.matching plain inside
  simp only [List.drop_left]
  exact .reads behind

theorem alike_prefixed : Alike Stop Inside Inside id prefixedName prefixedName := by
  intro s s' inside
  obtain ⟨same, behind⟩ := matching_run parallel.matching name_plain inside
  unfold prefixedName
  rw [← same]
  dsimp only
  split
  · exact .recovers
  · exact ((alike_char parallel.matching (by decide)).bind fun _ =>
      parallel.alike_local.bind fun name => alike_pure id (s.takeWhile isNameChar, name)) behind

theorem alike_suffix : Alike Stop Inside Inside id stringSuffix stringSuffix := by
  have carets : ∀ c ∈ ("^^" : Text), isPlain c := each_char (by decide)
  have done : Alike Stop Inside Inside id (pure () : Reader Unit) (pure ()) := alike_pure id ()
  have language := (alike_char (c := '@') parallel.matching (by decide)).then
    ((alike_run1 parallel.matching name_plain).then done)
  have datatype := (alike_text parallel.matching carets).then
    ((parallel.alike_iri.then done).or (alike_last (parallel.alike_prefixed.then done)))
  exact language.or (alike_last datatype)

theorem alike_string : Alike Stop Inside Inside ρ stringLiteral stringLiteral :=
  ((parallel.alike_quoted (.inl rfl)).or (alike_last (parallel.alike_quoted (.inr rfl)))).bind
    fun lexical => (parallel.alike_suffix.optional fun _ _ => id).bind fun _ => alike_pure ρ lexical

-- A reader that takes plain characters only goes over the same text on both sides.
theorem alike_matched {α : Type} {φ : α → α} {r : Reader α}
    (alike : ∀ R, Matching R → Alike Stop R R φ r r) :
    Alike Stop Inside Inside ρ (matched r) (matched r) := by
  intro s s' inside
  have agree := alike _ (fronted_matching parallel.matching s s') ⟨[], by simp, rfl, rfl, inside⟩
  unfold matched
  generalize r s = x, r s' = x' at agree ⊢
  cases agree with
  | reads behind =>
    obtain ⟨front, plain, rfl, rfl, rest⟩ := behind
    have taken (t : Text) : (front ++ t).take ((front ++ t).length - t.length) = front := by
      rw [List.length_append, Nat.add_sub_cancel, List.take_left]
    have same : Agree Stop Inside ρ (.ok (front, _)) (.ok (ρ front, _)) := .reads rest
    rw [parallel.kept plain] at same
    simp only [taken]
    exact same
  | recovers => exact .recovers
  | ends => exact .ends
  | stops stop => exact .stops stop

theorem alike_numeric : Alike Stop Inside Inside ρ numericLiteral numericLiteral := by
  apply parallel.alike_matched
  intro R matching
  have done : Alike Stop R R id (pure () : Reader Unit) (pure ()) := alike_pure id ()
  have sign : Alike Stop R R id (oneOf isSign) (oneOf isSign) := alike_one matching sign_plain
  have digits : Alike Stop R R id (run1 Char.isDigit) (run1 Char.isDigit) :=
    alike_run1 matching digit_plain
  have part : Alike Stop R R id fraction fraction :=
    (alike_char matching (by decide)).then (digits.then done)
  have whole := digits.then ((part.optional fun _ _ => id).then done)
  have exponent := (alike_one matching exponent_plain).then
    ((sign.optional fun _ _ => id).then digits)
  exact (sign.optional fun _ _ => id).then ((whole.or (alike_last part)).then
    ((exponent.optional fun _ _ => id).then done))

theorem alike_boolean : Alike Stop Inside Inside ρ booleanLiteral booleanLiteral := by
  have word {word : Text} (letters : isWord word) :
      Alike Stop Inside Inside ρ (matched (keyword word)) (matched (keyword word)) := by
    apply parallel.alike_matched
    exact fun R matching => alike_keyword matching letters
  exact (word (by decide)).or (alike_last (word (by decide)))

theorem alike_named : Alike Stop Inside Inside (Term.mapLiteral ρ) namedTerm namedTerm :=
  (parallel.alike_variable.map Term.variable (Term.mapLiteral ρ) fun _ => rfl).or
    ((parallel.alike_iri.map Term.iri (Term.mapLiteral ρ) fun _ => rfl).or
      (alike_last (parallel.alike_prefixed.map (fun name => .prefixed name.1 name.2)
        (Term.mapLiteral ρ) fun _ => rfl)))

theorem alike_verb : Alike Stop Inside Inside (Term.mapLiteral ρ) verb verb := by
  have type : Alike Stop Inside Inside (Term.mapLiteral ρ) (pure .rdfType) (pure .rdfType) :=
    alike_pure (Term.mapLiteral ρ) .rdfType
  exact ((alike_keyword parallel.matching (by decide)).then type).or
    (alike_last parallel.alike_named)

theorem alike_object : Alike Stop Inside Inside (Term.mapLiteral ρ) objectTerm objectTerm :=
  (parallel.alike_string.map Term.literal (Term.mapLiteral ρ) fun _ => rfl).or
    (parallel.alike_named.or
      ((parallel.alike_numeric.map Term.literal (Term.mapLiteral ρ) fun _ => rfl).or
        (alike_last (parallel.alike_boolean.map Term.literal (Term.mapLiteral ρ) fun _ => rfl))))

-- Whether a mark or a keyword stands next is decided without an end to the reading.
theorem alike_mark {c : Char} (plain : isPlain c) (mark : c ∈ [',', ';', '*', '\x7b']) :
    Alike Stop (Begun Start) Start id (Reader.spaced (char c)) (Reader.spaced (char c)) :=
  parallel.spaced (parallel.begins (alike_char parallel.matching plain)
    fun _ unread => unread.mark c mark)

theorem alike_word {word : Text} (letters : isWord word) (written : word ∈ writtenWords) :
    Alike Stop (Begun Start) Start id (Reader.spaced (keyword word))
      (Reader.spaced (keyword word)) :=
  parallel.spaced (parallel.begins (alike_keyword parallel.matching letters)
    fun _ unread => unread.word word written)

/-! ### Triples -/

theorem alike_verb_objects : Alike Stop (Begun Start) Start
    (List.map (Prod.map (Term.mapLiteral ρ) (Term.mapLiteral ρ))) verbObjects verbObjects := by
  have moves : Moves 1 (Reader.spaced (char ',') *> Reader.spaced objectTerm) :=
    (moves_mark (by decide)).behind moves_object.any.spaced
  have comma : Alike Stop Start Start id (Reader.spaced (char ',')) (Reader.spaced (char ',')) :=
    parallel.waiting (parallel.alike_mark (by decide) (by decide))
  have object : Alike Stop (Begun Start) Start (Term.mapLiteral ρ) (Reader.spaced objectTerm)
      (Reader.spaced objectTerm) :=
    parallel.spaced (parallel.begins parallel.alike_object fun _ => Unread.object)
  have objects := (alike_separated comma (parallel.waiting object) moves
    moves).commit.within "Expected object"
  apply (parallel.spaced (parallel.begins parallel.alike_verb fun _ => Unread.verb)).bind
  intro predicate
  apply objects.bind
  intro values
  apply alike_answer
  simp [Function.comp_def]

theorem alike_further (n n' : Nat) :
    Alike Stop (Bounded Start n n') Start
      (List.map (Prod.map (Term.mapLiteral ρ) (Term.mapLiteral ρ))) (verbObjectsBehindUpTo n)
      (verbObjectsBehindUpTo n') := by
  have semicolon : Alike (fun _ => False) Start Start id (Reader.spaced (char ';'))
      (Reader.spaced (char ';')) :=
    parallel.waiting (parallel.alike_mark (by decide) (by decide))
  have moves : Moves 1 (Reader.spaced (char ';')) := moves_mark (by decide)
  have pairs (n n' : Nat) : Alike Stop (Bounded Start n n') (Bounded Start n n')
      (List.map (Prod.map (Term.mapLiteral ρ) (Term.mapLiteral ρ))) verbObjects verbObjects :=
    (parallel.waiting parallel.alike_verb_objects).bounded moves_verb_objects.any
      moves_verb_objects.any
  induction n generalizing n' with
  | zero => exact bounded_none
  | succ n ih =>
    cases n' with
    | zero => exact bounded_none'
    | succ n' =>
      intro s s' start
      have agree := (semicolon.bounded moves moves) start
      unfold verbObjectsBehindUpTo
      generalize Reader.spaced (char ';') s = x, Reader.spaced (char ';') s' = x' at agree ⊢
      cases agree with
      | @reads _ rest rest' behind =>
        have agree := pairs n n' behind
        dsimp only
        generalize verbObjects rest = x, verbObjects rest' = x' at agree ⊢
        cases agree with
        | @reads first _ _ later => exact (ih n').listed first later
        | recovers => exact ih n' behind
        | ends => exact .ends
        | stops stop => exact .stops stop
      | recovers => exact .reads start.related
      | ends => exact .reads start.related
      | stops stop => cases stop

theorem alike_list : Alike Stop (Begun Start) Start
    (List.map (Prod.map (Term.mapLiteral ρ) (Term.mapLiteral ρ))) predicateObjectList
    predicateObjectList := by
  apply parallel.alike_verb_objects.bind
  intro first s s' start
  exact (parallel.alike_further _ _).listed first ⟨start, Nat.lt_succ_self _, Nat.lt_succ_self _⟩

theorem alike_subject : Alike Stop (Begun Start) Start (List.map (TriplePattern.mapLiterals ρ))
    sameSubject sameSubject := by
  have subject : Alike Stop (Begun Start) Start (Term.mapLiteral ρ) (Reader.spaced namedTerm)
      (Reader.spaced namedTerm) :=
    parallel.spaced (parallel.begins parallel.alike_named fun _ => Unread.named)
  apply (subject.within _).bind
  intro subject
  apply ((parallel.waiting parallel.alike_list).commit.within _).bind
  intro pairs
  apply alike_answer
  simp [Function.comp_def, TriplePattern.mapLiterals]

/-! ### Groups -/

theorem alike_open : Alike Stop (Begun Start) Start id openBrace openBrace :=
  parallel.spaced parallel.alike_brace

theorem alike_blocks {n n' : Nat}
    (inner : Alike Stop (Bounded Start n n') Start (mapLiterals ρ) (elementsUpTo n)
      (elementsUpTo n')) {block : Nat → Reader Group}
    (kind : block = minusBlock ∨ block = nestedGroup ∨ block = triplesBlock) :
    Alike Stop (Bounded Start (n + 1) (n' + 1)) Start (mapLiterals ρ) (block n) (block n') := by
  have opened : Alike Stop (Bounded Start (n + 1) (n' + 1)) (Bounded Start n n') id openBrace
      openBrace := (parallel.waiting parallel.alike_open).bounded moves_open moves_open
  have braced := opened.then inner
  have moves (n : Nat) : Moves 1 (do openBrace; elementsUpTo n) :=
    moves_open.bind fun _ => moves_elements n
  rcases kind with rfl | rfl | rfl
  · have read := (braced.commit.within "Error in MINUS block").stays ((moves n).commit.within _)
      ((moves n').commit.within _)
    apply read.bind
    exact fun elements => inner.bind fun others => alike_answer rfl
  · apply (braced.stays (moves n) (moves n')).bind
    exact fun elements => inner.bind fun others => alike_answer rfl
  · have subject := moves_subject.commit.within "Error in triple pattern"
    have waiting : Alike Stop Start Start (List.map (TriplePattern.mapLiterals ρ)) sameSubject
        sameSubject := parallel.waiting parallel.alike_subject
    have read := waiting.commit.within "Error in triple pattern"
    apply (read.bounded subject subject).bind
    exact fun triples => inner.bind fun others =>
      alike_answer (cons_block_map ρ triples others)

theorem unsupported_same {s s' : Text} (inside : Inside s s') :
    unsupported? s = unsupported? s' := by
  have words : ∀ construct ∈ unsupported, isWord construct.1 := by decide
  have same : ∀ construct ∈ unsupported,
      (keyword construct.1 s).isOk = (keyword construct.1 s').isOk := by
    intro construct member
    have alike : Alike (fun _ => False) Inside Inside id (keyword construct.1)
        (keyword construct.1) := alike_keyword parallel.matching (words construct member)
    have agree := alike inside
    generalize keyword construct.1 s = x, keyword construct.1 s' = x' at agree ⊢
    cases agree with
    | reads => rfl
    | recovers => rfl
    | ends => rfl
    | stops stop => cases stop
  unfold unsupported?
  rw [List.find?_congr same]

theorem alike_round {n n' : Nat} {c : Char} {tail tail' : Text}
    (inner : Alike Stop (Bounded Start n n') Start (mapLiterals ρ) (elementsUpTo n)
      (elementsUpTo n'))
    (inside : Inside (c :: tail) (c :: tail')) (short : (c :: tail).length < n + 1)
    (short' : (c :: tail').length < n' + 1)
    (behind : c = '\x7d' ∨ c = '.' → Start tail tail') :
    Agree Stop Start (mapLiterals ρ) (elementRound n c tail) (elementRound n' c tail') := by
  have start : Bounded Start (n + 1) (n' + 1) (c :: tail) (c :: tail') :=
    ⟨parallel.inside inside, short, short'⟩
  unfold elementRound
  rw [parallel.unsupported_same inside]
  by_cases closes : c = '\x7d'
  · rw [if_pos closes, if_pos closes]
    exact .reads (behind (.inl closes))
  · rw [if_neg closes, if_neg closes]
    cases unsupported? (c :: tail') with
    | some message => exact .ends
    | none =>
      by_cases period : c = '.'
      · simp only [if_pos period]
        exact inner ⟨behind (.inr period), Nat.lt_of_succ_lt_succ short,
          Nat.lt_of_succ_lt_succ short'⟩
      · simp only [if_neg period]
        have moves : Moves 0 (Reader.spaced (keyword "MINUS")) :=
          (moves_keyword (by decide)).spaced.any
        have word : Alike (fun _ => False) Start Start id (Reader.spaced (keyword "MINUS"))
            (Reader.spaced (keyword "MINUS")) :=
          parallel.waiting (parallel.alike_word (by decide) (by decide))
        have agree := (word.bounded moves moves) start
        have element : Agree Stop Start (mapLiterals ρ)
            (if c = '\x7b' then nestedGroup n (c :: tail) else triplesBlock n (c :: tail))
            (if c = '\x7b' then nestedGroup n' (c :: tail') else triplesBlock n' (c :: tail')) := by
          by_cases opens : c = '\x7b'
          · rw [if_pos opens, if_pos opens]
            exact parallel.alike_blocks inner (.inr (.inl rfl)) start
          · rw [if_neg opens, if_neg opens]
            exact parallel.alike_blocks inner (.inr (.inr rfl)) start
        generalize Reader.spaced (keyword "MINUS") (c :: tail) = x,
          Reader.spaced (keyword "MINUS") (c :: tail') = x' at agree ⊢
        cases agree with
        | reads rest => exact parallel.alike_blocks inner (.inl rfl) rest
        | recovers => exact element
        | ends => exact element
        | stops stop => cases stop

-- The next characters are the same, and a group goes on behind them if they end one or are periods.
theorem same_start {s s' : Text} (inside : Inside s s') :
    (∃ c tail tail', s = c :: tail ∧ s' = c :: tail' ∧ (c = '\x7d' ∨ c = '.' → Start tail tail')) ∨
      BeginsBlank s ∧ BeginsBlank s' := by
  cases parallel.piece inside with
  | plain kind rest => exact .inl ⟨_, _, _, rfl, rfl, fun _ => parallel.inside rest⟩
  | brace kind rest => exact .inl ⟨_, _, _, rfl, rfl, fun _ => rest⟩
  | iri body rest => exact .inl ⟨_, _, _, rfl, rfl, fun mark => absurd mark (by decide)⟩
  | @quoted quote _ _ _ kind absent absent' rest =>
    have other : ¬(quote = '\x7d' ∨ quote = '.') := by
      rcases kind with rfl | rfl <;> decide
    exact .inl ⟨_, _, _, rfl, rfl, fun mark => absurd mark other⟩
  | blank here there => exact .inr ⟨here, there⟩

theorem alike_elements (rounds : Rounds Stop Inside Start ρ) (n n' : Nat) :
    Alike Stop (Bounded Start n n') Start (mapLiterals ρ) (elementsUpTo n)
      (elementsUpTo n') := by
  induction n generalizing n' with
  | zero => exact bounded_none
  | succ n ih =>
    cases n' with
    | zero => exact bounded_none'
    | succ n' =>
      intro s s' start
      have dropped : Start (s.dropWhile isSpace) (s'.dropWhile isSpace) :=
        parallel.waits start.related
      have stays (t : Text) : (t.dropWhile isSpace).dropWhile isSpace = t.dropWhile isSpace :=
        List.dropWhile_idempotent _ _
      have shorter := (List.dropWhile_sublist isSpace (l := s)).length_le
      have shorter' := (List.dropWhile_sublist isSpace (l := s')).length_le
      rw [elements_dropped n s, elements_dropped n' s']
      by_cases inside : Inside (s.dropWhile isSpace) (s'.dropWhile isSpace)
      · rcases parallel.same_start inside with ⟨c, tail, tail', here, there, behind⟩ | blank
        · have here_stays := stays s
          have there_stays := stays s'
          rw [here] at shorter inside here_stays ⊢
          rw [there] at shorter' inside there_stays ⊢
          rw [elements_round n here_stays, elements_round n' there_stays]
          exact parallel.alike_round (ih n') inside (Nat.lt_of_le_of_lt shorter start.short)
            (Nat.lt_of_le_of_lt shorter' start.short') behind
        · exact rounds dropped (fun _ => blank) (stays s) (stays s') n n'
      · exact rounds dropped (fun same => absurd same inside) (stays s) (stays s') n n'

theorem alike_group (rounds : Rounds Stop Inside Start ρ) :
    Alike Stop (Begun Start) Start (mapLiterals ρ) group group := by
  have opened (n n' : Nat) : Alike Stop (Bounded (Begun Start) n n') (Bounded Start n n') id
      openBrace openBrace := parallel.alike_open.bounded moves_open.any moves_open.any
  intro s s' begun
  exact ((opened _ _).then (parallel.alike_elements rounds _ _))
    ⟨begun, Nat.lt_succ_self _, Nat.lt_succ_self _⟩

/-! ### Queries -/

theorem alike_declared_iri (context : String) :
    Alike Stop Start Start id (Reader.within context (commit (Reader.spaced iriRef)))
      (Reader.within context (commit (Reader.spaced iriRef))) :=
  (parallel.waiting (parallel.spaced
    (parallel.begins parallel.alike_iri fun _ => Unread.iri))).commit.within context

theorem alike_base_decl : Alike Stop (Begun Start) Start id baseDecl baseDecl :=
  (parallel.alike_word (by decide) (by decide)).then (parallel.alike_declared_iri _)

theorem alike_prefix_decl : Alike Stop (Begun Start) Start id prefixDecl prefixDecl := by
  have inside : Alike Stop Inside Inside id declaredLabel declaredLabel :=
    (alike_run parallel.matching name_plain).bind fun label =>
      (alike_char parallel.matching (by decide)).then (alike_pure id label)
  have label := parallel.begins inside fun _ => Unread.declared
  apply (parallel.alike_word (by decide) (by decide)).then
  apply (label.commit.within _).bind
  intro label
  apply (parallel.alike_declared_iri _).bind
  exact fun iri => alike_pure id _

theorem alike_declarations (n n' : Nat) (declared : Prologue) :
    Alike Stop (Bounded (Begun Start) n n') (Begun Start) id (prologueUpTo n declared)
      (prologueUpTo n' declared) := by
  induction n generalizing n' declared with
  | zero => exact bounded_none
  | succ n ih =>
    cases n' with
    | zero => exact bounded_none'
    | succ n' =>
      intro s s' start
      have base : Agree Stop (Bounded (Begun Start) n n') id (baseDecl s) (baseDecl s') :=
        ((parallel.alike_base_decl.out parallel.waits).bounded moves_base_decl
          moves_base_decl) start
      have label : Agree Stop (Bounded (Begun Start) n n') id (prefixDecl s) (prefixDecl s') :=
        ((parallel.alike_prefix_decl.out parallel.waits).bounded moves_prefix_decl
          moves_prefix_decl) start
      unfold prologueUpTo
      generalize baseDecl s = x, baseDecl s' = x' at base ⊢
      cases base with
      | reads behind => exact ih n' _ behind
      | recovers =>
        dsimp only
        generalize prefixDecl s = y, prefixDecl s' = y' at label ⊢
        cases label with
        | reads behind => exact ih n' _ behind
        | recovers => exact .reads start.related
        | ends => exact .ends
        | stops stop => exact .stops stop
      | ends => exact .ends
      | stops stop => exact .stops stop

theorem alike_prologue : Alike Stop (Begun Start) (Begun Start) id prologue prologue :=
  fun _ _ begun =>
    parallel.alike_declarations _ _ {} ⟨begun, Nat.lt_succ_self _, Nat.lt_succ_self _⟩

theorem alike_modifier : Alike Stop Start Start id modifier modifier := by
  have named (chosen : Modifier) {word : Text} (letters : isWord word) :
      Alike Stop Inside Inside id (do keyword word; return chosen)
        (do keyword word; return chosen) :=
    (alike_keyword parallel.matching letters).then (alike_pure id chosen)
  exact parallel.begins ((named .distinct (by decide)).or (alike_last (named .reduced (by decide))))
    fun _ => Unread.modifier

theorem alike_projection : Alike Stop Start Start id projection projection := by
  have star : Alike Stop Start Start id (do Reader.spaced (char '*'); return Projection.all)
      (do Reader.spaced (char '*'); return .all) :=
    (parallel.waiting (parallel.alike_mark (by decide) (by decide))).then (alike_pure id _)
  have comma : Alike Stop Start Start (Option.map id) (Reader.optional (Reader.spaced (char ',')))
      (Reader.optional (Reader.spaced (char ','))) :=
    (parallel.waiting (parallel.alike_mark (by decide) (by decide))).optional fun _ _ => id
  have moves_comma : Moves 0 (Reader.optional (Reader.spaced (char ','))) :=
    (moves_mark (by decide)).optional
  have moves := moves_variable.spaced.bind fun name => moves_comma.bind fun _ => moves_pure name
  have sigil : Alike Stop Start Start id variableName variableName :=
    parallel.begins parallel.alike_variable fun _ => Unread.sigil
  have name : Alike Stop Start Start id
      (do let name ← Reader.spaced variableName
          let _ ← Reader.optional (Reader.spaced (char ','))
          return name : Reader Text)
      (do let name ← Reader.spaced variableName
          let _ ← Reader.optional (Reader.spaced (char ','))
          return name) :=
    (parallel.waiting (parallel.spaced sigil)).bind fun name => comma.then (alike_pure id name)
  have list := (alike_many1 name moves moves).map Projection.named id fun names => by simp
  exact star.or (alike_last list)

theorem alike_clause : Alike Stop (Begun Start) Start id selectClause selectClause := by
  apply (parallel.alike_word (by decide) (by decide)).then
  apply ((parallel.waiting (parallel.spaced parallel.alike_modifier)).optional fun _ _ => id).bind
  intro modifier
  apply (parallel.alike_projection.commit.within _).bind
  intro listed
  apply alike_answer
  simp

theorem alike_query (rounds : Rounds Stop Inside Start ρ) :
    Alike Stop (Begun Start) Start (SelectQuery.mapLiterals ρ) selectQuery selectQuery := by
  have word : Alike Stop Start Start (Option.map id)
      (Reader.optional (Reader.spaced (keyword "WHERE")))
      (Reader.optional (Reader.spaced (keyword "WHERE"))) :=
    (parallel.waiting (parallel.alike_word (by decide) (by decide))).optional fun _ _ => id
  apply parallel.alike_prologue.bind
  intro declared
  apply (parallel.alike_clause.within _).bind
  rintro ⟨modifier, listed⟩
  apply word.then
  apply ((parallel.waiting (parallel.alike_group rounds)).commit.within _).bind
  intro pattern
  apply alike_answer
  rfl

end

end Parallel
end TripleTable.Sparql
