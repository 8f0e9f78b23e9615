import TripleTable.Proofs.Sparql.Inversion
import TripleTable.Proofs.Sparql.Tidying
import TripleTable.Proofs.Sparql.Tokens
set_option autoImplicit false

/-!
How far readers get. No reader opens a comment: where what it leaves behind is free of comments, the
text it started from is too. What a list or a group repeats takes at least one character each time,
so that the bounds on repetition are never met.
-/
namespace TripleTable.Sparql

-- From `s` to `rest`, over at least `least` characters and no comment.
structure Passes (least : Nat) (s rest : Text) : Prop where
  bound : rest.length + least ≤ s.length
  free : CommentFree rest → CommentFree s

section
variable {m n : Nat} {s t rest front : Text} {c : Char}

theorem passes_here (s : Text) : Passes 0 s s := ⟨le_rfl, id⟩

theorem Passes.trans (first : Passes m s t) (second : Passes n t rest) : Passes (m + n) s rest := by
  constructor
  · have lengths := first.bound
    have behind := second.bound
    omega
  · exact fun free => first.free (second.free free)

theorem Passes.at_least (passes : Passes n s rest) (le : m ≤ n) : Passes m s rest := by
  constructor
  · have lengths := passes.bound
    omega
  · exact passes.free

theorem Passes.any (passes : Passes n s rest) : Passes 0 s rest := passes.at_least (Nat.zero_le n)

theorem passes_bare (kind : isBare c) (rest : Text) : Passes 1 (c :: rest) rest :=
  ⟨le_rfl, .bare kind⟩

theorem passes_front (all : ∀ c ∈ front, isBare c) (rest : Text) :
    Passes front.length (front ++ rest) rest := by
  induction front with
  | nil => exact passes_here rest
  | cons c front ih =>
    obtain ⟨first, others⟩ := List.forall_mem_cons.mp all
    have whole := (passes_bare first (front ++ rest)).trans (ih others)
    rwa [Nat.add_comm] at whole

theorem passes_run {p : Char → Bool} (each : ∀ c, p c → isBare c) (s : Text) :
    Passes (s.takeWhile p).length s (s.dropWhile p) := by
  have all : ∀ c ∈ s.takeWhile p, isBare c := fun c member => each c (List.mem_takeWhile_imp member)
  have passes := passes_front all (s.dropWhile p)
  rwa [List.takeWhile_append_dropWhile] at passes

theorem passes_spaces (s : Text) : Passes 0 s (s.dropWhile isSpace) := by
  induction s with
  | nil => exact passes_here []
  | cons c s ih =>
    by_cases space : isSpace c
    · rw [List.dropWhile_cons_of_pos space]
      have lengths := ih.bound
      exact ⟨by simp only [List.length_cons]; omega, fun free => .space space (ih.free free)⟩
    · rw [List.dropWhile_cons_of_neg space]
      exact passes_here (c :: s)

end

/-! ### Which characters stand for themselves -/

section
variable {c : Char}

theorem bare_kind {p : Char → Bool} (solid : p c → isBlank c = false)
    (closed : ∀ d ∈ ['"', '\'', '<', '#'], p d = false) (kind : p c) : isBare c := by
  have apart : ∀ d ∈ ['"', '\'', '<', '#'], c ≠ d := by
    rintro d member rfl
    rw [closed c member] at kind
    cases kind
  simp only [List.forall_mem_cons] at apart
  simp [isBare, solid kind, apart]

theorem alphanumeric_bare (kind : isAlphanumeric c) : isBare c :=
  bare_kind alphanumeric_not_blank (each_char (by decide)) kind

theorem alphanum_bare (kind : c.isAlphanum) : isBare c :=
  alphanumeric_bare (isAlphanumeric_of_isAlphanum kind)

theorem letter_bare (letter : c.isAlpha) : isBare c :=
  alphanum_bare (by simp [Char.isAlphanum, letter])

theorem digit_bare (c : Char) (digit : c.isDigit) : isBare c :=
  alphanum_bare (by simp [Char.isAlphanum, digit])

theorem one_bare (chars : List Char) (all : chars.all isBare) (member : c ∈ chars) : isBare c :=
  List.all_eq_true.mp all c member

theorem variable_bare (c : Char) (kind : isVariableChar c) : isBare c := by
  rcases Bool.or_eq_true_iff.mp kind with wide | same
  · exact alphanumeric_bare wide
  · exact one_bare ['_'] (by decide) (by simpa using same)

theorem name_bare (c : Char) (kind : isNameChar c) : isBare c := by
  rcases Bool.or_eq_true_iff.mp kind with inside | same
  · exact variable_bare c inside
  · exact one_bare ['-'] (by decide) (by simpa using same)

theorem local_bare (c : Char) (kind : isLocalChar c) : isBare c := by
  rcases Bool.or_eq_true_iff.mp kind with inside | same
  · exact name_bare c inside
  · exact one_bare ['.'] (by decide) (by simpa using same)

theorem sigil_bare (c : Char) (kind : c == '?' || c == '$') : isBare c :=
  one_bare ['?', '$'] (by decide) (by simpa using kind)

theorem sign_bare (c : Char) (kind : isSign c) : isBare c :=
  one_bare ['+', '-'] (by decide) (by simpa [isSign] using kind)

theorem exponent_bare (c : Char) (kind : c == 'e' || c == 'E') : isBare c :=
  one_bare ['e', 'E'] (by decide) (by simpa using kind)

end

namespace Reader

-- What a reader passes over at least, wherever it succeeds.
def Moves {α : Type} (least : Nat) (r : Reader α) : Prop :=
  ∀ ⦃s value rest⦄, r s = .ok (value, rest) → Passes least s rest

section
variable {α β : Type} {m n : Nat} {r item : Reader α} {separator : Reader β}

theorem moves_pure (value : α) : Moves 0 (pure value : Reader α) := by
  intro s result rest read
  obtain ⟨_, rfl⟩ := pure_read read
  exact passes_here s

theorem Moves.bind {p : Reader α} {f : α → Reader β} (first : Moves m p)
    (behind : ∀ value, Moves n (f value)) : Moves (m + n) (p >>= f) := by
  intro s result rest read
  obtain ⟨value, t, here, later⟩ := bind_read read
  exact (first here).trans (behind value later)

theorem Moves.map (moves : Moves n r) (f : α → β) : Moves n (f <$> r) := by
  intro s result rest read
  obtain ⟨value, here, _⟩ := map_read read
  exact moves here

theorem Moves.at_least (moves : Moves n r) (le : m ≤ n) : Moves m r :=
  fun _ _ _ read => (moves read).at_least le

theorem Moves.any (moves : Moves n r) : Moves 0 r := moves.at_least (Nat.zero_le n)

theorem Moves.within (moves : Moves n r) (context : String) :
    Moves n (within context r) :=
  fun _ _ _ read => moves (within_read read)

theorem Moves.commit (moves : Moves n r) : Moves n (commit r) :=
  fun _ _ _ read => moves (commit_read read)

theorem Moves.optional (moves : Moves n r) : Moves 0 (optional r) := by
  intro s result rest read
  rcases optional_read read with ⟨value, _, here⟩ | ⟨_, rfl⟩
  · exact (moves here).any
  · exact passes_here rest

theorem moves_last (moves : Moves n r) : Moves n (firstOf [r]) := by
  intro s result rest read
  obtain ⟨_, member, here⟩ := first_of_read read
  cases List.mem_singleton.mp member
  exact moves here

theorem Moves.or {next : Reader α} {others : List (Reader α)} (first : Moves n r)
    (later : Moves n (firstOf (next :: others))) : Moves n (firstOf (r :: next :: others)) := by
  intro s result rest read
  simp only [firstOf] at read
  split at read
  · exact later read
  · exact first read

theorem Moves.matched (moves : Moves n r) : Moves n (matched r) := by
  intro s result rest read
  unfold Reader.matched at read
  split at read
  · rename_i here
    cases read
    exact moves here
  · cases read

theorem Moves.spaced (moves : Moves n r) : Moves n (spaced r) := by
  intro s result rest read
  obtain ⟨t, here, rfl⟩ := spaced_begins read
  have passes := ((passes_spaces s).trans (moves here)).trans (passes_spaces t)
  exact passes.at_least (by omega)

theorem moves_char {c : Char} (kind : isBare c) : Moves 1 (char c) := by
  intro s value rest read
  rw [char_begins read]
  exact passes_bare kind rest

theorem moves_one {p : Char → Bool} (each : ∀ c, p c → isBare c) : Moves 1 (oneOf p) := by
  intro s value rest read
  unfold oneOf at read
  split at read
  · split at read
    · rename_i kind
      cases read
      exact passes_bare (each _ kind) _
    · cases read
  · cases read

theorem moves_run {p : Char → Bool} (each : ∀ c, p c → isBare c) : Moves 0 (run p) := by
  intro s value rest read
  cases read
  exact (passes_run each s).any

theorem moves_run1 {p : Char → Bool} (each : ∀ c, p c → isBare c) : Moves 1 (run1 p) := by
  intro s value rest read
  unfold run1 at read
  split at read
  · cases read
  · rename_i inhabited
    cases read
    have some_front : 0 < (s.takeWhile p).length :=
      List.length_pos_iff.mpr (by simpa using inhabited)
    exact (passes_run each s).at_least some_front

theorem moves_text {word : Text} (all : ∀ c ∈ word, isBare c) : Moves 0 (text word) := by
  intro s value rest read
  unfold text at read
  split at read
  · rename_i found
    cases read
    rw [Text.eq_append_of_after? found]
    exact (passes_front all rest).any
  · cases read

theorem moves_many (moves : Moves m item) (n : Nat) :
    Moves 0 (manyUpTo item n) := by
  induction n with
  | zero => exact moves_pure []
  | succ n ih =>
    intro s values rest read
    unfold manyUpTo at read
    split at read
    · cases read
      exact passes_here s
    · cases read
    · rename_i value t here
      have behind := ih.bind (fun others => moves_pure (value :: others)) read
      exact ((moves here).trans behind).any

theorem moves_many1 (moves : Moves m item) : Moves m (many1 item) := by
  intro s values rest read
  unfold many1 at read
  split at read
  · cases read
  · cases read
  · rename_i value t here
    have behind := (moves_many moves _).bind (fun others => moves_pure (value :: others)) read
    exact (moves here).trans behind

theorem Moves.behind (first : Moves m separator) (second : Moves n item) :
    Moves (m + n) (separator *> item) :=
  first.bind fun _ => second

-- A list behind separators is a list of items that begin with the separator.
theorem behind_many (separator : Reader β) (item : Reader α) (n : Nat) :
    behindUpTo separator item n = manyUpTo (separator *> item) n := by
  induction n with
  | zero => rfl
  | succ n ih =>
    funext s
    rw [behindUpTo, manyUpTo, ih]

theorem moves_separated (first : Moves m separator) (second : Moves n item) :
    Moves n (separated separator item) := by
  intro s values rest read
  obtain ⟨value, t, here, later⟩ := bind_read read
  rw [behind_many] at later
  exact (second here).trans
    ((moves_many (first.behind second) _).bind (fun others => moves_pure (value :: others)) later)

end
end Reader

open Reader

/-! ### Terms -/

theorem moves_keyword {word : Text} (letters : isWord word) : Moves 1 (keyword word) := by
  intro s value rest read
  obtain ⟨token, rfl, same, _⟩ := keyword_begins read
  obtain ⟨c, more, _, _, rfl, _, _, _⟩ := keyword_head letters same
  have all : ∀ d ∈ c :: more, isBare d := fun d member =>
    letter_bare (keyword_letters letters same d member)
  exact (passes_front all rest).at_least (by simp)

theorem moves_variable : Moves 1 variableName :=
  (moves_one sigil_bare).bind fun _ => (moves_run1 variable_bare).any

theorem moves_iri : Moves 1 iriRef := by
  intro s iri rest read
  obtain ⟨_, t, opened, read⟩ := bind_read read
  obtain ⟨_, u, body, read⟩ := bind_read read
  obtain ⟨_, v, closed, read⟩ := bind_read read
  obtain ⟨_, rfl⟩ := pure_read read
  cases body
  have split : s = '<' :: (t.takeWhile isIriChar ++ '>' :: v) := by
    rw [char_begins opened, ← char_begins closed, List.takeWhile_append_dropWhile]
  rw [split]
  refine ⟨?_, .iri fun c member => List.mem_takeWhile_imp member⟩
  simp only [List.length_cons, List.length_append]
  omega

theorem moves_quoted {quote : Char} (mark : quote = '"' ∨ quote = '\'') :
    Moves 1 (quoted quote) := by
  intro s lexical rest read
  obtain ⟨_, t, opened, read⟩ := bind_read read
  obtain ⟨_, u, body, read⟩ := bind_read read
  obtain ⟨_, v, closed, read⟩ := bind_read read
  obtain ⟨_, rfl⟩ := pure_read read
  cases body
  have split : s = quote :: (t.takeWhile (· != quote) ++ quote :: v) := by
    rw [char_begins opened, ← char_begins closed, List.takeWhile_append_dropWhile]
  have absent : quote ∉ t.takeWhile (· != quote) := fun member => by
    simpa using List.mem_takeWhile_imp member
  rw [split]
  refine ⟨?_, .quoted mark absent⟩
  simp only [List.length_cons, List.length_append]
  omega

-- The local part is what the text goes on with.
theorem local_begins {s name rest : Text} (read : localPart s = .ok (name, rest)) :
    s = name ++ rest ∧ ∀ c ∈ name, isLocalChar c := by
  have start : ((s.takeWhile isLocalChar).reverse.dropWhile (· == '.')).reverse <+:
      s.takeWhile isLocalChar := List.rdropWhile_prefix (· == '.') _
  cases read
  exact ⟨(List.prefix_iff_eq_append.mp (start.trans (List.takeWhile_prefix isLocalChar))).symm,
    fun c member => List.mem_takeWhile_imp (start.subset member)⟩

theorem moves_local : Moves 0 localPart := by
  intro s name rest read
  obtain ⟨rfl, plain⟩ := local_begins read
  exact (passes_front (fun c member => local_bare c (plain c member)) rest).any

theorem moves_prefixed : Moves 1 prefixedName := by
  have behind (label : Text) : Moves 1 (do
      char ':'
      let name ← localPart
      return (label, name)) :=
    (moves_char (by decide)).bind fun _ => moves_local.bind fun name => moves_pure (label, name)
  intro s name rest read
  unfold prefixedName at read
  dsimp only at read
  split at read
  · cases read
  · exact ((passes_run name_bare s).any.trans (behind _ read)).at_least (by simp)

theorem moves_suffix : Moves 0 stringSuffix := by
  have language := (moves_char (c := '@') (by decide)).bind fun _ =>
    (moves_run1 name_bare).bind fun _ => moves_pure ()
  have iri := moves_iri.bind fun _ => moves_pure ()
  have name := moves_prefixed.bind fun _ => moves_pure ()
  have carets : ∀ c ∈ ("^^" : Text), isBare c := each_char (by decide)
  have datatype := (moves_text carets).bind fun _ => iri.or (moves_last name)
  exact language.any.or (moves_last datatype.any)

theorem moves_string : Moves 1 stringLiteral :=
  ((moves_quoted (.inl rfl)).or (moves_last (moves_quoted (.inr rfl)))).bind fun lexical =>
    moves_suffix.optional.bind fun _ => moves_pure lexical

theorem moves_sign : Moves 1 (oneOf isSign) := moves_one sign_bare

theorem moves_fraction : Moves 1 fraction :=
  (moves_char (by decide)).bind fun _ => (moves_run1 digit_bare).any.bind fun _ => moves_pure ()

theorem moves_numeric : Moves 1 numericLiteral := by
  have whole := (moves_run1 digit_bare).bind fun _ => moves_fraction.optional.bind fun _ =>
    moves_pure ()
  have exponent := (moves_one exponent_bare).bind fun _ => moves_sign.optional.bind fun _ =>
    moves_run1 digit_bare
  exact (moves_sign.optional.bind fun _ => (whole.or (moves_last moves_fraction)).bind
    fun _ => exponent.optional.bind fun _ => moves_pure ()).matched

theorem moves_boolean : Moves 1 booleanLiteral :=
  (moves_keyword (by decide)).matched.or (moves_last (moves_keyword (by decide)).matched)

theorem moves_named : Moves 1 namedTerm :=
  (moves_variable.map _).or ((moves_iri.map _).or (moves_last (moves_prefixed.map _)))

theorem moves_verb : Moves 1 verb :=
  ((moves_keyword (by decide)).bind fun _ => moves_pure _).or (moves_last moves_named)

theorem moves_object : Moves 1 objectTerm :=
  (moves_string.map _).or (moves_named.or
    ((moves_numeric.map _).or (moves_last (moves_boolean.map _))))

/-! ### Triples and groups -/

theorem moves_mark {c : Char} (kind : isBare c) : Moves 1 (spaced (char c)) :=
  (moves_char kind).spaced

theorem moves_verb_objects : Moves 1 verbObjects := by
  have objects := moves_separated (moves_mark (c := ',') (by decide)) moves_object.any.spaced
  exact moves_verb.spaced.bind fun predicate => (objects.commit.within _).bind fun values =>
    moves_pure (values.map fun object => (predicate, object))

theorem moves_behind (n : Nat) : Moves 0 (verbObjectsBehindUpTo n) := by
  induction n with
  | zero => exact moves_pure []
  | succ n ih =>
    intro s pairs rest read
    unfold verbObjectsBehindUpTo at read
    split at read
    · cases read
      exact passes_here s
    · rename_i semicolon
      have first := moves_mark (by decide) semicolon
      split at read
      · rename_i found
        have behind := (moves_verb_objects found).trans (ih.bind (fun _ => moves_pure _) read)
        exact (first.trans behind).any
      · exact (first.trans (ih read)).any
      · cases read

theorem moves_list : Moves 1 predicateObjectList := by
  intro s pairs rest read
  obtain ⟨first, t, here, later⟩ := bind_read read
  exact (moves_verb_objects here).trans
    ((moves_behind _).bind (fun others => moves_pure (first ++ others)) later)

theorem moves_subject : Moves 1 sameSubject := by
  have pairs := moves_list.any.commit.within
    "Expected predicate and object after subject"
  exact (moves_named.spaced.within _).bind fun subject => pairs.bind fun found =>
    moves_pure (found.map fun pair => TriplePattern.mk subject pair.1 pair.2)

theorem moves_open : Moves 1 openBrace := moves_mark (by decide)

-- The three kinds of elements, each with the elements behind it.
def minusBlock (n : Nat) : Reader Group := do
  let inner ← within "Error in MINUS block" (commit do openBrace; elementsUpTo n)
  return Element.minus inner :: (← elementsUpTo n)

def nestedGroup (n : Nat) : Reader Group := do
  let inner ← (do openBrace; elementsUpTo n)
  return Element.group inner :: (← elementsUpTo n)

def triplesBlock (n : Nat) : Reader Group := do
  let block ← within "Error in triple pattern" (commit sameSubject)
  return consBlock block (← elementsUpTo n)

-- One round of a group's reader, at a text that begins with `c`.
def elementRound (n : Nat) (c : Char) (tail : Text) : Except Halt (Group × Text) :=
  if c = '\x7d' then .ok ([], tail)
  else match unsupported? (c :: tail) with
    | some message => .error (.final [⟨message, c :: tail⟩])
    | none =>
      if c = '.' then elementsUpTo n tail
      else match spaced (keyword "MINUS") (c :: tail) with
        | .ok (_, rest) => minusBlock n rest
        | .error _ => if c = '\x7b' then nestedGroup n (c :: tail) else triplesBlock n (c :: tail)

theorem elements_round {s tail : Text} {c : Char} (n : Nat)
    (here : s.dropWhile isSpace = c :: tail) : elementsUpTo (n + 1) s = elementRound n c tail := by
  rw [elementsUpTo, elementRound]
  simp only [here]
  cases unsupported? (c :: tail) with
  | some message => rfl
  | none => rfl

theorem moves_blocks {n : Nat} (inner : Moves 0 (elementsUpTo n)) :
    Moves 0 (minusBlock n) ∧ Moves 0 (nestedGroup n) ∧ Moves 0 (triplesBlock n) := by
  have braced := (moves_open.bind fun _ => inner).any
  refine ⟨?_, ?_, ?_⟩
  · exact (braced.commit.within _).bind fun elements => inner.bind fun others =>
      moves_pure (Element.minus elements :: others)
  · exact braced.bind fun elements => inner.bind fun others =>
      moves_pure (Element.group elements :: others)
  · exact (moves_subject.any.commit.within _).bind fun block =>
      inner.bind fun others => moves_pure (consBlock block others)

theorem moves_elements (n : Nat) : Moves 0 (elementsUpTo n) := by
  induction n with
  | zero =>
    intro s elements rest read
    cases read
  | succ n ih =>
    obtain ⟨minus, nested, triples⟩ := moves_blocks ih
    intro s elements rest read
    have lead := passes_spaces s
    cases here : s.dropWhile isSpace with
    | nil =>
      rw [elementsUpTo] at read
      simp only [here] at read
      cases read
    | cons c tail =>
      rw [here] at lead
      apply (lead.trans (n := 0) _).at_least le_rfl
      rw [elements_round n here, elementRound] at read
      split at read
      · rename_i closes
        cases read
        rw [closes]
        exact (passes_bare (by decide) rest).any
      · split at read
        · cases read
        · split at read
          · rename_i period
            rw [period]
            exact ((passes_bare (by decide) tail).trans (ih read)).any
          · split at read
            · rename_i word
              exact (((moves_keyword (by decide)).spaced word).trans (minus read)).any
            · split at read
              · exact nested read
              · exact triples read

theorem moves_group : Moves 1 group := by
  intro s pattern rest read
  exact (moves_open.bind fun _ => moves_elements _) read

/-! ### Queries -/

theorem moves_base_decl : Moves 1 baseDecl :=
  (moves_keyword (by decide)).spaced.bind fun _ =>
    moves_iri.any.spaced.commit.within _

theorem moves_prefix_decl : Moves 1 prefixDecl := by
  have label : Moves 0 (do
      let label ← run isNameChar
      char ':'
      return label) :=
    ((moves_run name_bare).bind fun label => (moves_char (by decide)).bind fun _ =>
      moves_pure label).any
  exact (moves_keyword (by decide)).spaced.bind fun _ => (label.commit.within _).bind fun label =>
    (moves_iri.any.spaced.commit.within _).bind fun iri => moves_pure (PrefixDecl.mk label iri)

theorem moves_declarations (n : Nat) (declared : Prologue) : Moves 0 (prologueUpTo n declared) := by
  induction n generalizing declared with
  | zero => exact moves_pure declared
  | succ n ih =>
    intro s whole rest read
    unfold prologueUpTo at read
    split at read
    · rename_i found
      exact ((moves_base_decl found).trans (ih _ read)).any
    · cases read
    · split at read
      · rename_i found
        exact ((moves_prefix_decl found).trans (ih _ read)).any
      · cases read
      · cases read
        exact passes_here s

theorem moves_projection : Moves 0 projection := by
  have star := (moves_mark (c := '*') (by decide)).bind fun _ => moves_pure Projection.all
  have comma := (moves_mark (c := ',') (by decide)).optional
  have name := moves_variable.spaced.bind fun name => comma.bind fun _ => moves_pure name
  exact star.any.or (moves_last ((moves_many1 name).map Projection.named).any)

theorem moves_modifier : Moves 1 modifier :=
  ((moves_keyword (by decide)).bind fun _ => moves_pure _).or
    (moves_last ((moves_keyword (by decide)).bind fun _ => moves_pure _))

theorem moves_clause : Moves 1 selectClause :=
  (moves_keyword (by decide)).spaced.bind fun _ => moves_modifier.spaced.optional.bind fun option =>
    (moves_projection.commit.within _).bind fun listed => moves_pure (option, listed)

theorem moves_query : Moves 0 selectQuery := by
  have declarations : Moves 0 prologue := fun _ _ _ read => moves_declarations _ _ read
  have clause := (moves_clause.within "Expected SELECT query").any
  have word : Moves 0 (optional (spaced (keyword "WHERE"))) :=
    (moves_keyword (by decide)).spaced.optional
  have pattern := (moves_group.commit.within "Expected '\x7b' to open the graph pattern").any
  exact declarations.bind fun declared => clause.bind fun parts => word.bind fun _ =>
    pattern.bind fun found => moves_pure (SelectQuery.mk declared parts.1 parts.2 found)

theorem accepted_read {t : Text} {q : SelectQuery} (accepted : parseQuery t = .ok q) :
    ∃ rest, selectQuery t = .ok (q, rest) ∧ (∀ c ∈ rest, isBlank c) ∧
      undeclared? q.prologue ((allTriples q.pattern).flatMap TriplePattern.terms) = none := by
  unfold parseQuery at accepted
  split at accepted
  · cases accepted
  · rename_i query rest read
    dsimp only at accepted
    split at accepted
    · cases accepted
    · rename_i ends
      split at accepted
      · cases accepted
      · rename_i declared
        cases accepted
        refine ⟨rest, read, ?_, declared⟩
        simpa [Text.trimStart, List.dropWhile_eq_nil_iff] using ends

theorem accepted_free {t : Text} {q : SelectQuery} (accepted : parseQuery t = .ok q) :
    CommentFree t := by
  obtain ⟨rest, read, blanks, _⟩ := accepted_read accepted
  exact (moves_query read).free (.blanks blanks)

end TripleTable.Sparql
