import TripleTable.Proofs.Sparql.Patterns
set_option autoImplicit false

/-!
Whole queries: whatever way a query is written in, reading the text gives the query back.
-/
namespace TripleTable.Sparql
open Reader

/-! ### The prologue -/

section
variable {s : Text} {more : List Text}

theorem base_read {word iri token : Text} (same : IsKeyword "BASE" word)
    (spelled : IsIriToken iri token) (begins : Begins (word :: token :: more) s) :
    ReadsTo baseDecl s iri more := by
  obtain ⟨t, keyword, begins, _⟩ := spaced_read (keyword_read (by decide) same) begins
  obtain ⟨rest, read, begins, _⟩ := spaced_read (iri_read spelled) begins
  refine ⟨rest, ?_, begins, by omega⟩
  rw [baseDecl, bind_ok keyword, within_ok _ (commit_ok read)]

theorem base_fails {word other : Text} (others : isWord other)
    (apart : some 'b' ≠ other.head?.map Char.toLower) (same : IsKeyword other word)
    (begins : Begins (word :: more) s) : Fails baseDecl s :=
  bind_fails (spaced_refused (keyword_refused (by decide) others apart same) begins)

theorem prefix_fails {word other : Text} (others : isWord other)
    (apart : some 'p' ≠ other.head?.map Char.toLower) (same : IsKeyword other word)
    (begins : Begins (word :: more) s) : Fails prefixDecl s :=
  bind_fails (spaced_refused (keyword_refused (by decide) others apart same) begins)

theorem label_solid {label : Text} (plain : IsLabel label) : Solid (label ++ [':']) := by
  obtain ⟨c, rest, head, kind⟩ := label_head plain []
  refine ⟨c, rest, head, opens_name_solid ?_⟩
  rcases kind with rfl | name
  · decide
  · simp [opensName, name]

-- The label is read where the blanks behind the keyword end, not behind a gap of its own.
theorem prefix_read {word label iri token : Text} (same : IsKeyword "PREFIX" word)
    (plain : IsLabel label) (spelled : IsIriToken iri token)
    (begins : Begins (word :: (label ++ [':']) :: token :: more) s) :
    ReadsTo prefixDecl s ⟨label, iri⟩ more := by
  obtain ⟨t, keyword, follows, _⟩ := spaced_read_to (keyword_read (by decide) same) begins
  obtain ⟨u, here, follows, _⟩ := begins_token (label_solid plain) (follows_begins follows)
  have colon : ∀ c ∈ (':' :: u).head?, isNameChar c = false := by
    intro c head
    cases head
    decide
  have label_read : (do let label ← run isNameChar; char ':'; return label : Reader Text)
      (t.dropWhile isSpace) = .ok (label, u) := by
    rw [here, List.append_assoc, List.singleton_append, bind_ok (run_ok plain colon),
      bind_ok (char_ok _ _), pure_run]
  obtain ⟨rest, read, begins, _⟩ := spaced_read (iri_read spelled) (follows_begins follows)
  refine ⟨rest, ?_, begins, by omega⟩
  rw [prefixDecl, bind_ok keyword, bind_ok (within_ok _ (commit_ok label_read)),
    bind_ok (within_ok _ (commit_ok read)), pure_run]

theorem declarations_read {declared whole : Prologue} {tokens : List Text} {word : Text}
    (spelled : PrologueSpelled declared tokens whole) (select : IsKeyword "SELECT" word) {n : Nat}
    (begins : Begins (tokens ++ word :: more) s) (enough : s.length < n) :
    ∃ rest, prologueUpTo n declared s = .ok (whole, rest) ∧ Begins (word :: more) rest := by
  induction spelled generalizing n s with
  | done =>
    cases n with
    | zero => omega
    | succ n =>
      obtain ⟨_, no_base⟩ := base_fails (by decide) (by decide) select begins
      obtain ⟨_, no_prefix⟩ := prefix_fails (by decide) (by decide) select begins
      exact ⟨s, by simp only [prologueUpTo, no_base, no_prefix], begins⟩
  | base same iri _ ih =>
    cases n with
    | zero => omega
    | succ n =>
      obtain ⟨t, read, begins, _⟩ := base_read same iri begins
      obtain ⟨rest, others, begins⟩ := ih (n := n) begins (by omega)
      exact ⟨rest, by simp only [prologueUpTo, read, others], begins⟩
  | label same plain iri _ ih =>
    cases n with
    | zero => omega
    | succ n =>
      obtain ⟨_, no_base⟩ := base_fails (by decide) (by decide) same begins
      obtain ⟨t, read, begins, _⟩ := prefix_read same plain iri begins
      obtain ⟨rest, others, begins⟩ := ih (n := n) begins (by omega)
      exact ⟨rest, by simp only [prologueUpTo, no_base, read, others], begins⟩

end

/-! ### The SELECT clause -/

section
variable {s : Text} {more : List Text}

-- A token that no word is read at: it begins with a mark or a sigil.
def BeginsWithSymbol (tokens : List Text) : Prop :=
  ∃ c rest more, tokens = (c :: rest) :: more ∧ isSpace c = false ∧ c.isAlpha = false

theorem modifier_read {option : Option Modifier} {tokens : List Text}
    (spelled : ModifierSpelled option tokens) (symbol : BeginsWithSymbol more)
    (begins : Begins (tokens ++ more) s) :
    ∃ rest, optional (spaced modifier) s = .ok (option, rest) ∧ Begins more rest := by
  cases spelled with
  | none =>
    obtain ⟨c, rest, others, rfl, solid, symbol⟩ := symbol
    have refuses : Refuses modifier (c :: rest) := by
      refine ⟨⟨c, rest, rfl, solid⟩, fun tail _ => two_fail ?_ ?_⟩
      · exact bind_fails (keyword_fails_symbol (by decide) symbol _)
      · exact bind_fails (keyword_fails_symbol (by decide) symbol _)
    exact ⟨s, optional_fails (spaced_refused refuses begins), begins⟩
  | @distinct token same =>
    have word := keyword_read (by decide) same
    have reads : Reads modifier token Modifier.distinct := by
      refine ⟨word.solid, fun rest stops => first_of_here ?_⟩
      rw [bind_ok (word.read rest stops), pure_run]
    obtain ⟨rest, read, begins, _⟩ := spaced_read reads begins
    exact ⟨rest, optional_ok read, begins⟩
  | @reduced token same =>
    have word := keyword_read (by decide) same
    have reads : Reads modifier token Modifier.reduced := by
      refine ⟨word.solid, fun rest stops => ?_⟩
      have no_distinct : Fails (keyword "DISTINCT") (token ++ rest) :=
        keyword_fails_keyword (by decide) (by decide) (by decide) same rest
      rw [modifier, first_of_next (bind_fails no_distinct)]
      exact first_of_here (by rw [bind_ok (word.read rest stops), pure_run])
    obtain ⟨rest, read, begins, _⟩ := spaced_read reads begins
    exact ⟨rest, optional_ok read, begins⟩

def listedName : Reader Text := do
  let name ← spaced variableName
  let _ ← optional (spaced (char ','))
  return name

-- What may stand behind the last listed variable.
def ClosesNames (more : List Text) : Prop := GoesOn ['?', '$', ','] more

theorem names_head {names tokens : List Text} (inhabited : names ≠ [])
    (spelled : NamesSpelled names tokens) :
    ∃ c name others, tokens = (c :: name) :: others ∧ c ∈ ['?', '$'] := by
  cases spelled with
  | nil => exact absurd rfl inhabited
  | @name name _ _ others token _ =>
    obtain ⟨_, sigil, kind, rfl⟩ := token
    exact ⟨sigil, name, others, rfl, by simpa using kind⟩
  | @comma name _ _ others token _ =>
    obtain ⟨_, sigil, kind, rfl⟩ := token
    exact ⟨sigil, name, [','] :: others, rfl, by simpa using kind⟩

theorem names_go_on {names : List Text} {tokens : List Text} (spelled : NamesSpelled names tokens)
    (closes : ClosesNames more) : GoesOn [','] (tokens ++ more) := by
  by_cases empty : names = []
  · subst empty
    cases spelled
    exact goes_on_fewer closes (by simp)
  · obtain ⟨c, name, others, rfl, sigil⟩ := names_head empty spelled
    have plain : ∀ d ∈ ['?', '$'], isSpace d = false ∧ d ∉ [','] := each_char (by decide)
    exact ⟨c, name, others ++ more, rfl, plain c sigil⟩

theorem listed_name_read {name : Text} {names tokens : List Text}
    (spelled : NamesSpelled (name :: names) tokens) (closes : ClosesNames more)
    (begins : Begins (tokens ++ more) s) :
    ∃ tail, NamesSpelled names tail ∧ ReadsTo listedName s name (tail ++ more) := by
  cases spelled with
  | name token spelled =>
    obtain ⟨t, read, begins, _⟩ := spaced_read (variable_read token) begins
    have no_comma := mark_absent (names_go_on spelled closes) (List.mem_singleton_self ',') begins
    refine ⟨_, spelled, t, ?_, begins, by omega⟩
    rw [listedName, bind_ok read, bind_ok (optional_fails no_comma), pure_run]
  | comma token spelled =>
    obtain ⟨t, read, begins, _⟩ := spaced_read (variable_read token) begins
    obtain ⟨u, comma, begins, _⟩ := spaced_read (mark_read comma_solid) begins
    refine ⟨_, spelled, u, ?_, begins, by omega⟩
    rw [listedName, bind_ok read, bind_ok (optional_ok comma), pure_run]

theorem closes_no_name (closes : ClosesNames more) (begins : Begins more s) :
    Fails listedName s := by
  obtain ⟨c, rest, others, rfl, solid, absent⟩ := closes
  have other : c ≠ '?' ∧ c ≠ '$' := by simp_all
  exact bind_fails (spaced_refused ⟨⟨c, rest, rfl, solid⟩, fun _ _ => variable_fails other _⟩ begins)

theorem further_names_read {names : List Text} {tokens : List Text}
    (spelled : NamesSpelled names tokens) (closes : ClosesNames more) {n : Nat}
    (begins : Begins (tokens ++ more) s) (enough : s.length < n) :
    ∃ rest, manyUpTo listedName n s = .ok (names, rest) ∧ Begins more rest := by
  induction names generalizing n s tokens with
  | nil =>
    cases spelled
    cases n with
    | zero => omega
    | succ n =>
      obtain ⟨_, halts⟩ := closes_no_name closes begins
      exact ⟨s, by simp only [manyUpTo, halts], begins⟩
  | cons name names ih =>
    cases n with
    | zero => omega
    | succ n =>
      obtain ⟨tail, spelled, t, read, begins, _⟩ := listed_name_read spelled closes begins
      obtain ⟨rest, others, begins⟩ := ih spelled begins (n := n) (by omega)
      refine ⟨rest, ?_, begins⟩
      simp only [manyUpTo, read]
      rw [bind_ok others, pure_run]

theorem names_read {names : List Text} {tokens : List Text} (inhabited : names ≠ [])
    (spelled : NamesSpelled names tokens) (closes : ClosesNames more)
    (begins : Begins (tokens ++ more) s) :
    ∃ rest, many1 listedName s = .ok (names, rest) ∧ Begins more rest := by
  cases names with
  | nil => exact absurd rfl inhabited
  | cons name names =>
    obtain ⟨tail, spelled, t, read, begins, _⟩ := listed_name_read spelled closes begins
    obtain ⟨rest, others, begins⟩ :=
      further_names_read spelled closes begins (Nat.lt_succ_self t.length)
    refine ⟨rest, ?_, begins⟩
    simp only [many1, read]
    rw [bind_ok others, pure_run]

theorem projection_symbol {list : Projection} {tokens : List Text}
    (spelled : ProjectionSpelled list tokens) : BeginsWithSymbol (tokens ++ more) := by
  cases spelled with
  | all => exact ⟨'*', [], _, rfl, by decide, by decide⟩
  | named inhabited names =>
    obtain ⟨c, name, others, rfl, sigil⟩ := names_head inhabited names
    have plain : ∀ d ∈ ['?', '$'], isSpace d = false ∧ d.isAlpha = false := each_char (by decide)
    exact ⟨c, name, others ++ more, rfl, plain c sigil⟩

theorem projection_read {list : Projection} {tokens : List Text}
    (spelled : ProjectionSpelled list tokens) (closes : ClosesNames more)
    (begins : Begins (tokens ++ more) s) :
    ∃ rest, projection s = .ok (list, rest) ∧ Begins more rest := by
  cases spelled with
  | all =>
    obtain ⟨rest, read, begins, _⟩ := spaced_read (mark_read (by decide)) begins
    exact ⟨rest, first_of_here (by rw [bind_ok read, pure_run]), begins⟩
  | @named names tokens inhabited spelled =>
    have no_star : Fails (spaced (char '*')) s := by
      obtain ⟨c, name, others, rfl, sigil⟩ := names_head inhabited spelled
      have plain : ∀ d ∈ ['?', '$'], isSpace d = false ∧ d ≠ '*' := each_char (by decide)
      exact spaced_refused (mark_refused (plain c sigil).1 (plain c sigil).2) begins
    obtain ⟨rest, read, begins⟩ := names_read inhabited spelled closes begins
    refine ⟨rest, ?_, begins⟩
    rw [projection, first_of_next (bind_fails no_star)]
    exact first_of_here (map_ok _ read)

theorem select_clause_read {word : Text} {option : Option Modifier} {list : Projection}
    {front tokens : List Text} (select : IsKeyword "SELECT" word)
    (modified : ModifierSpelled option front) (spelled : ProjectionSpelled list tokens)
    (closes : ClosesNames more) (begins : Begins (word :: (front ++ (tokens ++ more))) s) :
    ∃ rest, selectClause s = .ok ((option, list), rest) ∧ Begins more rest := by
  obtain ⟨t, keyword, begins, _⟩ := spaced_read (keyword_read (by decide) select) begins
  obtain ⟨u, option_read, begins⟩ := modifier_read modified (projection_symbol spelled) begins
  obtain ⟨rest, read, begins⟩ := projection_read spelled closes begins
  refine ⟨rest, ?_, begins⟩
  rw [selectClause, bind_ok keyword, bind_ok option_read, bind_ok (within_ok _ (commit_ok read)),
    pure_run]

theorem where_read {tokens : List Text} (spelled : WhereSpelled tokens)
    (begins : Begins (tokens ++ ['\x7b'] :: more) s) :
    ∃ found rest, optional (spaced (keyword "WHERE")) s = .ok (found, rest) ∧
      Begins (['\x7b'] :: more) rest := by
  cases spelled with
  | omitted =>
    have refuses : Refuses (keyword "WHERE") ['\x7b'] :=
      ⟨⟨'\x7b', [], rfl, open_solid⟩, fun rest _ => keyword_fails_symbol (by decide) (by decide) rest⟩
    exact ⟨none, s, optional_fails (spaced_refused refuses begins), begins⟩
  | written same =>
    obtain ⟨rest, read, begins, _⟩ := spaced_read (keyword_read (by decide) same) begins
    exact ⟨some (), rest, optional_ok read, begins⟩

theorem where_closes {tokens : List Text} (spelled : WhereSpelled tokens) :
    ClosesNames (tokens ++ ['\x7b'] :: more) := by
  cases spelled with
  | omitted => exact goes_on_mark rfl open_solid (by decide)
  | written same => exact keyword_goes_on (by decide) same (each_char (by decide))

end

/-! ### Whole queries -/

theorem select_query_read {q : SelectQuery} {tokens : List Text} (spelled : QuerySpelled q tokens)
    {s : Text} (begins : Begins tokens s) :
    ∃ rest, selectQuery s = .ok (q, rest) ∧ Begins [] rest := by
  cases spelled with
  | @mk declarations word front list «where» body prologue select modified listed spelled_where
      pattern =>
    obtain ⟨t, prologue_read, begins⟩ :=
      declarations_read prologue select begins (Nat.lt_succ_self s.length)
    obtain ⟨u, clause, begins⟩ :=
      select_clause_read select modified listed (where_closes spelled_where) begins
    obtain ⟨found, v, where_found, begins⟩ := where_read spelled_where begins
    obtain ⟨rest, pattern_read, begins, _⟩ := group_read pattern begins
    refine ⟨rest, ?_, begins⟩
    have front : Sparql.prologue s = .ok (q.prologue, t) := prologue_read
    rw [selectQuery, bind_ok front, bind_ok (within_ok _ clause)]
    dsimp only
    rw [bind_ok where_found, bind_ok (within_ok _ (commit_ok pattern_read)), pure_run]

theorem blanks_trimmed {rest : Text} (begins : Begins [] rest) : Text.trimStart rest = [] := by
  obtain ⟨t, follows, same⟩ := begins
  cases follows with
  | nil blanks =>
    rw [List.dropWhile_eq_nil_iff.mpr blanks, List.dropWhile_eq_nil_iff] at same
    exact List.dropWhile_eq_nil_iff.mpr fun c member => isBlank_of_isSpace (same c member)

theorem all_declared {q : SelectQuery} (plain : q.Plain) :
    undeclared? q.prologue ((allTriples q.pattern).flatMap TriplePattern.terms) = none :=
  undeclared_none.mpr plain.declared

-- A plain query can be written, and every text that writes it is read as that query.
theorem written_query_read {q : SelectQuery} (plain : q.Plain) :
    (∃ s, q.Writes s) ∧ ∀ s, q.Writes s → parseQuery s = .ok q := by
  refine ⟨plain.writes_exists, ?_⟩
  rintro s ⟨tokens, spelled, laid_out⟩
  obtain ⟨rest, read, begins⟩ := select_query_read spelled (laid_out_begins laid_out)
  simp only [parseQuery, read, blanks_trimmed begins, all_declared plain]
  rfl

def typedQuery : SelectQuery where
  prologue := { prefixes := [⟨"u", "n#"⟩] }
  modifier := some .distinct
  projection := .named ["x"]
  pattern := [.triples [
    ⟨.variable "x", .rdfType, .prefixed "u" "P.1"⟩,
    ⟨.variable "x", .rdfType, .literal "it"⟩]]

theorem typed_query_plain : typedQuery.Plain := by
  have name : IsVariableName "x" := by decide
  have label : IsLabel "u" ∧ ("u" : Text).head? ≠ some '-' := by decide
  have iri : IsIri "n#" := by decide
  have local_name : IsLocal "P.1" := by decide
  have quoted : IsQuoteOf '"' "it" := by decide
  constructor
  · simp [typedQuery]
  · simpa [typedQuery] using ⟨label.1, iri⟩
  · simpa [typedQuery] using name
  · simp [typedQuery, Compact, StartsWithTriples]
  · have first : TriplePattern.Plain ⟨.variable "x", .rdfType, .prefixed "u" "P.1"⟩ :=
      ⟨name, .inl rfl, .inr ⟨label, local_name⟩⟩
    have second : TriplePattern.Plain ⟨.variable "x", .rdfType, .literal "it"⟩ :=
      ⟨name, .inl rfl, .inl ⟨_, _, quoted, rfl⟩⟩
    simpa [typedQuery, allTriples, Element.allTriples] using ⟨first, second⟩
  · simp [typedQuery, allTriples, Element.allTriples, TriplePattern.terms, Prologue.namespace?]

theorem typed_query_spelled : QuerySpelled typedQuery [
    "prefix", "u:", "<n#>", "SELECT", "distinct", "$x", "\x7b", "?x", "A", "u:P.1", ",", "'it'", ";",
    ".", "\x7d"] := by
  have name : IsVariableName "x" := by decide
  have label : IsLabel "u" := by decide
  have prologue : PrologueSpelled {} ["prefix", "u:", "<n#>"] typedQuery.prologue :=
    .label (by decide) label ⟨by decide, rfl⟩ .done
  have list : ProjectionSpelled typedQuery.projection ["$x"] :=
    .named (by simp) (.name ⟨name, '$', .inr rfl, rfl⟩ .nil)
  have first : Term.ObjectSpelled (.prefixed "u" "P.1") "u:P.1" :=
    .name (.prefixed label (by decide) (by decide))
  have second : Term.ObjectSpelled (.literal "it") "'it'" := .literal ⟨.inr rfl, by decide⟩
  have verb : Term.VerbSpelled .rdfType "A" := .rdfType (by decide)
  have subject : Term.NameSpelled (.variable "x") "?x" := .variable ⟨name, '?', .inl rfl, rfl⟩
  have block : GroupSpelled typedQuery.pattern ["?x", "A", "u:P.1", ",", "'it'", ";", "."] :=
    .last (.mk subject (.mk verb (.more first (.last second))) (.idle .nil)) (.period .nil) id
      (interrupts_period _ _)
  exact .mk prologue (by decide) (.distinct (by decide)) list .omitted block

theorem typed_query_read : typedQuery.Plain ∧ parseQuery
    "prefix u: <n#> SELECT distinct $x \x7b ?x A u:P.1 , 'it' ; . \x7d" = .ok typedQuery :=
  ⟨typed_query_plain,
    (written_query_read typed_query_plain).2 _ ⟨_, typed_query_spelled, join_laid_out _⟩⟩

end TripleTable.Sparql
