import TripleTable.Proofs.Plan.ListText
import TripleTable.Translation
set_option autoImplicit false

/-!
The projection is read twice: once with the whole query, and once from the text between the words
SELECT and WHERE. The two readings agree on a text in which these words and the tokens between them
stand apart.
-/
namespace TripleTable.Plan
open Sparql Sparql.Reader

/-! ### The tokens of the list, projected -/

def Projects (bindings : Bindings) : Projection → List ProjectionItem → Prop
  | .all, items => items = bindings.map fun (name, column) => ⟨name, column⟩
  | .named names, items => items.map ProjectionItem.variableName = names ∧
    ∀ item ∈ items, bindings.get? item.variableName = some item.column

def Bound (bindings : Bindings) : Projection → Prop
  | .all => True
  | .named names => ∀ name ∈ names, (bindings.get? name).isSome

section
variable {bindings : Bindings} {tokens : List Text}

theorem project_step {token : Text} {items : List ProjectionItem}
    (here : projectToken bindings token = .ok items) (tokens : List Text) :
    projectTokens bindings (token :: tokens) = (items ++ ·) <$> projectTokens bindings tokens := by
  simp only [projectTokens, here]
  rfl

theorem modifier_skipped {token : Text} (modifier : isModifier token) (tokens : List Text) :
    projectTokens bindings (token :: tokens) = projectTokens bindings tokens := by
  have nothing : projectToken bindings token = .ok [] := by rw [projectToken, if_pos modifier]
  rw [project_step nothing]
  cases projectTokens bindings tokens <;> rfl

theorem project_modifier {option : Option Modifier} {front : List Text}
    (spelled : ModifierSpelled option front) (tokens : List Text) :
    projectTokens bindings (front ++ tokens) = projectTokens bindings tokens := by
  cases spelled with
  | none => rfl
  | @distinct token same =>
    have lower : Text.asciiLower token = ("distinct" : Text) := same.trans (by decide)
    exact modifier_skipped (by rw [isModifier, lower]; rfl) tokens
  | @reduced token same =>
    have lower : Text.asciiLower token = ("reduced" : Text) := same.trans (by decide)
    exact modifier_skipped (by rw [isModifier, lower]; rfl) tokens

theorem project_spelled {name token : Text} (spelled : IsVariableToken name token) :
    projectToken bindings token = match bindings.get? name with
      | some column => .ok [⟨name, column⟩]
      | none => .error (.unbound token) := by
  obtain ⟨⟨_, all⟩, sigil, kind, rfl⟩ := spelled
  have stripped : (sigil :: name).dropWhile isSigil = name := by
    have stops : ∀ c ∈ name.head?, isSigil c = false := by
      intro c head
      have part := all c (List.mem_of_mem_head? head)
      simp only [isSigil, Bool.or_eq_false_iff, beq_eq_false_iff_ne]
      constructor
      · rintro rfl
        exact absurd part (by decide)
      · rintro rfl
        exact absurd part (by decide)
    have sign : isSigil sigil := by
      rcases kind with rfl | rfl <;> rfl
    rw [List.dropWhile_cons_of_pos sign, (stops_run stops).2]
  have no_modifier : isModifier (sigil :: name) = false := by
    rcases kind with rfl | rfl <;> simp [isModifier, Text.asciiLower]
  have no_star : sigil :: name ≠ ['*'] := by
    rcases kind with rfl | rfl <;> simp
  simp only [projectToken, no_modifier, if_neg no_star, stripped]
  rfl

theorem project_variable {name token : Text} {column : Column}
    (spelled : IsVariableToken name token) (found : bindings.get? name = some column) :
    projectToken bindings token = .ok [⟨name, column⟩] := by
  rw [project_spelled spelled, found]

theorem project_names {names : List Text} (spelled : List.Forall₂ IsVariableToken names tokens)
    (bound : ∀ name ∈ names, (bindings.get? name).isSome) :
    ∃ items, projectTokens bindings tokens = .ok items ∧
      Projects bindings (.named names) items := by
  induction spelled with
  | nil => exact ⟨[], rfl, rfl, by simp⟩
  | @cons name token names tokens first _ ih =>
    obtain ⟨column, found⟩ := Option.isSome_iff_exists.mp (bound name (by simp))
    obtain ⟨items, others, same, columns⟩ := ih fun other member => bound other (by simp [member])
    refine ⟨⟨name, column⟩ :: items, ?_, by simp [same], ?_⟩
    · rw [project_step (project_variable first found), others]
      rfl
    · exact List.forall_mem_cons.mpr ⟨found, columns⟩

theorem project_list {listed : Projection} (spelled : ListTokens listed tokens)
    (bound : Bound bindings listed) :
    ∃ items, projectTokens bindings tokens = .ok items ∧ Projects bindings listed items := by
  cases listed with
  | all =>
    cases spelled
    have all : projectToken bindings ['*'] =
        .ok (bindings.map fun (name, column) => ⟨name, column⟩) := by
      rw [projectToken, if_neg (by decide), if_pos rfl]
    refine ⟨_, ?_, rfl⟩
    rw [project_step all, projectTokens]
    exact congrArg Except.ok (List.append_nil _)
  | named names => exact project_names spelled.2 bound

end

/-! ### The two readings -/

-- The places that the parser comes by: behind the prologue, behind the SELECT clause, and behind
-- a WHERE that is written.
structure WhereWritten (s front back rest : Text) : Prop where
  declarations : ∃ declared, prologue s = .ok (declared, front)
  clause : ∃ chosen, selectClause front = .ok (chosen, back)
  written : spaced (keyword "WHERE") back = .ok ((), rest)

-- Neither word stands in the prologue, the tokens of the list are apart, and no listed name holds
-- WHERE as a word of its own.
structure PlainClause (s front back : Text) (listed : Projection) : Prop where
  no_select : findWord? "select" none (consumed s front) = none
  no_where : findWord? "where" none (consumed s front) = none
  parted : Parted true ((consumed (front.dropWhile isSpace) back).drop 6)
  names : ∀ names, listed = .named names →
    ∀ name ∈ names, findWord? "where" (some '?') name = none

section
variable {s front back rest : Text} {q : SelectQuery}

theorem parsed_query (accepted : parseQuery s = .ok q) : ∃ rest, selectQuery s = .ok (q, rest) := by
  unfold parseQuery at accepted
  split at accepted
  · cases accepted
  · rename_i query rest found
    dsimp only at accepted
    split at accepted
    · cases accepted
    · split at accepted
      · cases accepted
      · cases accepted
        exact ⟨rest, found⟩

theorem parsed_written (accepted : parseQuery s = .ok q) (written : WhereWritten s front back rest) :
    selectClause front = .ok ((q.modifier, q.projection), back) ∧
      ∃ t, group rest = .ok (q.pattern, t) := by
  obtain ⟨u, read⟩ := parsed_query accepted
  obtain ⟨⟨declared, declarations⟩, ⟨chosen, clause⟩, written⟩ := written
  rw [selectQuery, bind_ok declarations, bind_ok (within_ok _ clause)] at read
  dsimp only at read
  rw [bind_ok (optional_ok written)] at read
  obtain ⟨pattern, t, pattern_read, done⟩ := bind_read read
  cases done
  exact ⟨clause, _, commit_read (within_read pattern_read)⟩

theorem brace_begins {pattern : Group} {t : Text} (read : group s = .ok (pattern, t)) :
    ∃ more, s.dropWhile isSpace = '\x7b' :: more := by
  obtain ⟨_, u, opened, _⟩ := bind_read read
  obtain ⟨more, brace, _⟩ := spaced_begins opened
  exact ⟨more, char_begins brace⟩

-- What stands behind the keyword is a blank or the brace, so the word ends there.
theorem where_begins {pattern : Group} {t : Text}
    (written : spaced (keyword "WHERE") back = .ok ((), rest))
    (body : group rest = .ok (pattern, t)) :
    beginsWithWord "where" (back.dropWhile isSpace) ∧
      ∃ c ∈ (back.dropWhile isSpace).head?, isVariableChar c := by
  obtain ⟨tail, here, rfl⟩ := spaced_begins written
  obtain ⟨token, split, same, _⟩ := keyword_begins here
  obtain ⟨more, brace⟩ := brace_begins body
  rw [List.dropWhile_idempotent] at brace
  have ends : ∀ c ∈ tail.head?, isWordChar c = false := by
    have plain : ∀ d ∈ '\x7b' :: gapChars, isWordChar d = false := each_char (by decide)
    intro c head
    cases tail with
    | nil => cases head
    | cons d tail =>
      cases head
      by_cases space : isSpace c
      · exact plain c (by simp [space_gap space])
      · rw [List.dropWhile_cons_of_neg space] at brace
        cases brace
        exact plain _ (by simp)
  have folds : token.map foldCase = ("where" : Text) := keyword_folds (by decide) same
  have begins := begins_word token ends
  rw [folds, ← split] at begins
  refine ⟨begins, ?_⟩
  obtain ⟨c, others, _, _, rfl, _, _, letter⟩ := keyword_head (by decide) same
  rw [split]
  exact ⟨c, rfl, letter_variable letter⟩

theorem parted_blanks {gap : Text} (blanks : ∀ c ∈ gap, isSpace c) (apart : Bool) :
    Parted apart gap := by
  induction gap generalizing apart with
  | nil => trivial
  | cons c gap ih =>
    have no_mark : isListMark c = false := by
      have all : ∀ d ∈ gapChars, isListMark d = false := each_char (by decide)
      exact all c (space_gap (blanks c (by simp)))
    refine ⟨fun mark => ?_, ih (fun d member => blanks d (by simp [member])) _⟩
    rw [no_mark] at mark
    cases mark

theorem parted_gap {list gap : Text} {apart : Bool} (parted : Parted apart list)
    (blanks : ∀ c ∈ gap, isSpace c) : Parted apart (list ++ gap) := by
  induction list generalizing apart with
  | nil => exact parted_blanks blanks apart
  | cons c list ih => exact ⟨parted.1, ih parted.2⟩

theorem named_token {names tokens : List Text} {token : Text}
    (spelled : List.Forall₂ IsVariableToken names tokens) (member : token ∈ tokens) :
    ∃ name ∈ names, IsVariableToken name token := by
  induction spelled with
  | nil => cases member
  | @cons name first names tokens here _ ih =>
    rcases List.mem_cons.mp member with rfl | inside
    · exact ⟨name, by simp, here⟩
    · obtain ⟨other, known, spelled⟩ := ih inside
      exact ⟨other, by simp [known], spelled⟩

theorem modifier_kinds {option : Option Modifier} {front : List Text}
    (modified : ModifierSpelled option front) : ∀ token ∈ front, ListToken token := by
  intro token member
  cases modified with
  | none => cases member
  | distinct same =>
    cases List.mem_singleton.mp member
    exact .distinct same
  | reduced same =>
    cases List.mem_singleton.mp member
    exact .reduced same

theorem list_kinds {option : Option Modifier} {listed : Projection} {front tokens : List Text}
    (modified : ModifierSpelled option front) (spelled : ListTokens listed tokens)
    (plain : ∀ names, listed = .named names →
      ∀ name ∈ names, findWord? "where" (some '?') name = none) :
    ∀ token ∈ front ++ tokens, ListToken token := by
  intro token member
  rcases List.mem_append.mp member with inside | inside
  · exact modifier_kinds modified token inside
  · cases listed with
    | all =>
      cases spelled
      cases List.mem_singleton.mp inside
      exact .star
    | named names =>
      obtain ⟨name, here, spelled⟩ := named_token spelled.2 inside
      exact .named spelled (plain names rfl name here)

theorem list_marked {option : Option Modifier} {listed : Projection} {front tokens : List Text}
    (modified : ModifierSpelled option front) (spelled : ListTokens listed tokens) :
    ∀ token ∈ (front ++ tokens).tail, ∃ c ∈ token.head?, isListMark c := by
  have marked : ∀ token ∈ tokens, ∃ c ∈ token.head?, isListMark c := by
    intro token member
    cases listed with
    | all =>
      cases spelled
      cases List.mem_singleton.mp member
      exact ⟨'*', rfl, by decide⟩
    | named names =>
      obtain ⟨name, _, _, sigil, kind, rfl⟩ := named_token spelled.2 member
      refine ⟨sigil, rfl, ?_⟩
      rcases kind with rfl | rfl <;> decide
  intro token member
  cases modified with
  | none => exact marked token (List.mem_of_mem_tail member)
  | distinct same => exact marked token member
  | reduced same => exact marked token member

theorem list_inhabited {listed : Projection} {tokens : List Text}
    (spelled : ListTokens listed tokens) : tokens ≠ [] := by
  rintro rfl
  cases listed with
  | all => cases spelled
  | named names =>
    cases spelled.2
    exact spelled.1 rfl

theorem spread_inhabited {list : Text} {tokens : List Text} (spread : Spread tokens list)
    (kinds : ∀ token ∈ tokens, ListToken token) (inhabited : tokens ≠ []) : list ≠ [] := by
  rintro rfl
  have empty := spread_tokens spread kinds
  exact inhabited empty.symm

-- The text that the projection is read from falls into the tokens that the parser read.
theorem clause_between {listed : Projection} {option : Option Modifier}
    (written : WhereWritten s front back rest) (clause : selectClause front = .ok ((option, listed), back))
    {pattern : Group} {t : Text} (body : group rest = .ok (pattern, t))
    (plain : PlainClause s front back listed) :
    ∃ list modifiers tokens, betweenSelectAndWhere? s = some list ∧
      Text.tokensOn separates list = modifiers ++ tokens ∧ ModifierSpelled option modifiers ∧
      ListTokens listed tokens := by
  obtain ⟨_, declarations⟩ := written.declarations
  obtain ⟨lead, rfl, ends⟩ := prologue_text declarations
  obtain ⟨word, list, modifiers, tokens, split, same, stops, modified, spelled, text⟩ :=
    clause_list clause
  obtain ⟨begins, keyword⟩ := where_begins written.written body
  have gap := fun c (member : c ∈ back.takeWhile isSpace) => List.mem_takeWhile_imp member
  rw [← List.takeWhile_append_dropWhile (p := isSpace) (l := back)] at text stops
  have whole := text.append (spaces_list back)
  have parted := plain.parted
  have six : word.length = 6 := by
    have lengths := congrArg List.length (same : Text.asciiLower word = _)
    simpa [Text.asciiLower] using lengths
  rw [split, ← List.append_assoc, consumed_front, List.drop_left' six] at parted
  have kinds := list_kinds modified spelled plain.names
  rw [List.append_nil] at whole
  have spread := list_spread whole kinds (list_marked modified spelled) keyword
    (parted_gap parted gap)
  have inhabited := spread_inhabited spread kinds (by simp [list_inhabited spelled])
  have no_select := plain.no_select
  have no_where := plain.no_where
  rw [consumed_front] at no_select no_where
  rw [← List.append_assoc] at stops
  have written : back.dropWhile isSpace ≠ [] := by
    rintro empty
    obtain ⟨c, head, _⟩ := keyword
    rw [empty] at head
    cases head
  have found := between_read same no_select no_where ends
    (fun c (member : c ∈ front.takeWhile isSpace) => List.mem_takeWhile_imp member) spread kinds
    inhabited stops begins written
  refine ⟨_, modifiers, tokens, ?_, spread_tokens spread kinds, modified, spelled⟩
  rw [List.append_assoc, List.takeWhile_append_dropWhile, ← split,
    List.takeWhile_append_dropWhile] at found
  exact found

end

-- Both readings give the same variables in the same order, each with its column.
theorem readings_agree {s front back rest : Text} {q : SelectQuery} {p : JoinPlan}
    (accepted : parseQuery (stripComments s) = .ok q)
    (written : WhereWritten (stripComments s) front back rest)
    (resolved : resolve (Pattern.ofGroup q.prologue q.pattern) = .ok p)
    (bound : Bound p.bindings q.projection)
    (plain : PlainClause (stripComments s) front back q.projection) :
    ∃ items, planQuery s = .ok ⟨q.modifier = some .distinct, items, p⟩ ∧
      Projects p.bindings q.projection items := by
  obtain ⟨clause, t, body⟩ := parsed_written accepted written
  obtain ⟨list, modifiers, tokens, between, split, modified, spelled⟩ :=
    clause_between written clause body plain
  obtain ⟨items, projected, projects⟩ := project_list spelled bound
  have read : readProjection (stripComments s) p.bindings = .ok items := by
    rw [readProjection, between]
    dsimp only
    rw [show Text.tokensOn (fun c => c == ',' || isBlank c) list = modifiers ++ tokens from split,
      project_modifier modified, projected]
  refine ⟨items, ?_, projects⟩
  have parsed : (Sparql.parseQuery (stripComments s)).mapError TranslateError.parse = .ok q := by
    rw [accepted]
    rfl
  have planned : (resolve (Pattern.ofGroup q.prologue q.pattern)).mapError
      TranslateError.malformed = .ok p := by
    rw [resolved]
    rfl
  simp only [planQuery, parsed, planned, read, bind, Except.bind]
  rfl

/-! ### Texts on which the readings agree and differ -/

instance (bindings : Bindings) : (listed : Projection) → Decidable (Bound bindings listed)
  | .all => isTrue trivial
  | .named names => inferInstanceAs (Decidable (∀ name ∈ names, (bindings.get? name).isSome))

-- The projection that a text is parsed to and the columns that its plan binds.
def parsedBindings (s : Text) : Option (Projection × Option Bindings) :=
  (parseQuery s).toOption.map fun q => (q.projection,
    (resolve (Pattern.ofGroup q.prologue q.pattern)).toOption.map JoinPlan.bindings)

theorem parsed_bindings {s : Text} {listed : Projection} {bindings : Bindings}
    (parsed : parsedBindings s = some (listed, some bindings)) :
    ∃ q p, parseQuery s = .ok q ∧ resolve (Pattern.ofGroup q.prologue q.pattern) = .ok p ∧
      q.projection = listed ∧ p.bindings = bindings := by
  unfold parsedBindings at parsed
  cases query : parseQuery s with
  | error trace =>
    rw [query] at parsed
    cases parsed
  | ok q =>
    rw [query] at parsed
    cases plan : resolve (Pattern.ofGroup q.prologue q.pattern) with
    | error defect => simp [Except.toOption, plan] at parsed
    | ok p =>
      simp only [Except.toOption, plan, Option.map_some, Option.some.injEq, Prod.mk.injEq] at parsed
      exact ⟨q, p, rfl, plan, parsed.1, parsed.2⟩

-- What one triple binds.
def pairBindings (subject object : Text) : Bindings :=
  [(subject, ⟨1, .subject⟩), (object, ⟨1, .object⟩)]

def listedNames : Text :=
  "PREFIX e: <http://e/>\nSELECT DISTINCT ?y, $x WHERE \x7b ?x e:p ?y \x7d"

theorem listed_names_agree : ∃ q p items, parseQuery (stripComments listedNames) = .ok q ∧
    resolve (Pattern.ofGroup q.prologue q.pattern) = .ok p ∧
    planQuery listedNames = .ok ⟨q.modifier = some .distinct, items, p⟩ ∧
    Projects p.bindings q.projection items := by
  have parsed : parsedBindings (stripComments listedNames) =
      some (Projection.named ["y", "x"], some (pairBindings "x" "y")) := by decide +kernel
  obtain ⟨q, p, accepted, resolved, named, bindings⟩ := parsed_bindings parsed
  have written : WhereWritten (stripComments listedNames)
      "SELECT DISTINCT ?y, $x WHERE \x7b ?x e:p ?y \x7d" "WHERE \x7b ?x e:p ?y \x7d"
      "\x7b ?x e:p ?y \x7d" :=
    ⟨⟨⟨none, [⟨"e", "http://e/"⟩]⟩, by decide +kernel⟩,
      ⟨(some .distinct, .named ["y", "x"]), by decide +kernel⟩, by decide +kernel⟩
  have bound : Bound p.bindings q.projection := by
    rw [named, bindings]
    decide
  have names : ∀ names, q.projection = .named names →
      ∀ name ∈ names, findWord? "where" (some '?') name = none := by
    intro names same
    rw [named] at same
    cases same
    decide
  obtain ⟨items, planned, projects⟩ := readings_agree accepted written resolved bound
    ⟨by decide +kernel, by decide +kernel, by decide +kernel, names⟩
  exact ⟨q, p, items, accepted, resolved, planned, projects⟩

-- A text that the parser reads in full, with all listed variables bound, while the projection read
-- from the text is another one.
def ReadingsDiffer (s : Text) : Prop :=
  ∃ front back rest q p, parseQuery (stripComments s) = .ok q ∧
    WhereWritten (stripComments s) front back rest ∧
    resolve (Pattern.ofGroup q.prologue q.pattern) = .ok p ∧ Bound p.bindings q.projection ∧
    ¬∃ items, planQuery s = .ok ⟨q.modifier = some .distinct, items, p⟩ ∧
      Projects p.bindings q.projection items

theorem readings_differ {s front back rest : Text} {listed : Projection} {bindings : Bindings}
    {error : TranslateError} (parsed : parsedBindings (stripComments s) = some (listed, some bindings))
    (bound : Bound bindings listed) (written : WhereWritten (stripComments s) front back rest)
    (failed : planQuery s = .error error) : ReadingsDiffer s := by
  obtain ⟨q, p, accepted, resolved, rfl, rfl⟩ := parsed_bindings parsed
  refine ⟨front, back, rest, q, p, accepted, written, resolved, bound, ?_⟩
  rintro ⟨items, planned, _⟩
  rw [failed] at planned
  cases planned

def adjacentNames : Text := "SELECT ?x?y WHERE \x7b ?x <p> ?y \x7d"

def keywordPrefix : Text := "PREFIX select: <e> SELECT ?x WHERE \x7b ?x select:p ?y \x7d"

def keywordName : Text := "SELECT ?²where WHERE \x7b ?²where <p> ?y \x7d"

-- Two names without a blank between them, a prefix that is the word SELECT, and a name in which
-- WHERE stands behind a superscript: none of the conditions can be left out.
theorem unplain_clauses_differ :
    ReadingsDiffer adjacentNames ∧ ReadingsDiffer keywordPrefix ∧ ReadingsDiffer keywordName := by
  refine ⟨?_, ?_, ?_⟩
  · have parsed : parsedBindings (stripComments adjacentNames) =
        some (Projection.named ["x", "y"], some (pairBindings "x" "y")) := by decide +kernel
    have written : WhereWritten (stripComments adjacentNames) adjacentNames
        "WHERE \x7b ?x <p> ?y \x7d" "\x7b ?x <p> ?y \x7d" :=
      ⟨⟨{}, by decide +kernel⟩, ⟨(none, .named ["x", "y"]), by decide +kernel⟩, by decide +kernel⟩
    have failed : planQuery adjacentNames = .error (.unresolved "?x?y") := by decide +kernel
    exact readings_differ parsed (by decide) written failed
  · have parsed : parsedBindings (stripComments keywordPrefix) =
        some (Projection.named ["x"], some (pairBindings "x" "y")) := by decide +kernel
    have written : WhereWritten (stripComments keywordPrefix)
        "SELECT ?x WHERE \x7b ?x select:p ?y \x7d" "WHERE \x7b ?x select:p ?y \x7d"
        "\x7b ?x select:p ?y \x7d" :=
      ⟨⟨⟨none, [⟨"select", "e"⟩]⟩, by decide +kernel⟩, ⟨(none, .named ["x"]), by decide +kernel⟩,
        by decide +kernel⟩
    have failed : planQuery keywordPrefix = .error (.unresolved ":") := by decide +kernel
    exact readings_differ parsed (by decide) written failed
  · have parsed : parsedBindings (stripComments keywordName) =
        some (Projection.named ["²where"], some (pairBindings "²where" "y")) := by decide +kernel
    have written : WhereWritten (stripComments keywordName) keywordName
        "WHERE \x7b ?²where <p> ?y \x7d" "\x7b ?²where <p> ?y \x7d" :=
      ⟨⟨{}, by decide +kernel⟩, ⟨(none, .named ["²where"]), by decide +kernel⟩, by decide +kernel⟩
    have failed : planQuery keywordName = .error (.unresolved "?²") := by decide +kernel
    exact readings_differ parsed (by decide) written failed

end TripleTable.Plan
