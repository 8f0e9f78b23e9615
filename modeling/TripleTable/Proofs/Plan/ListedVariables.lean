import TripleTable.Proofs.Plan.Readings
set_option autoImplicit false

/-!
A list of variables between SELECT and WHERE, each behind a run of commas and blanks. A name may
spell a keyword: what is read from such a text are the columns of the variables in their written
order, or the first variable that has none, whatever follows the WHERE.
-/
namespace TripleTable.Plan
open Sparql

/-! ### The written clause -/

-- What stands in front of a word of the list.
structure Gap where
  text : Text
  inhabited : text ≠ []
  apart : ∀ c ∈ text, separates c

structure ListedVariable where
  sigil : Char
  name : Text
  sign : sigil = '?' ∨ sigil = '$'
  inhabited : name ≠ []
  plain : ∀ c ∈ name, c.isAlphanum ∨ c = '_'

-- The text of a SELECT clause up to the WHERE behind it, with the words in any letter case.
structure ListedClause where
  select : Text
  modifier : Option (Gap × Text)
  entries : List (Gap × ListedVariable)
  gap : Gap
  closing : Text
  selects : IsKeyword "SELECT" select
  modifies : ∀ word ∈ modifier, IsKeyword "DISTINCT" word.2 ∨ IsKeyword "REDUCED" word.2
  closes : IsKeyword "WHERE" closing

-- A word in front of the text ends there.
def EndsWord (rest : Text) : Prop := ∀ c ∈ rest.head?, isWordChar c = false

def wordsText (words : List (Gap × Text)) : Text :=
  words.flatMap fun (gap, token) => gap.text ++ token

namespace ListedVariable
variable (v : ListedVariable)

def token : Text := v.sigil :: v.name

theorem spelled : IsVariableToken v.name v.token := by
  refine ⟨⟨v.inhabited, fun c member => ?_⟩, v.sigil, v.sign, rfl⟩
  rcases v.plain c member with alphanum | rfl
  · simp [isVariableChar, isAlphanumeric_of_isAlphanum alphanum]
  · decide

-- Behind its sigil the name is one run of word characters, whatever it spells.
theorem no_word (word : Text) : findWord? word (some '?') v.name = none := by
  refine find_inside (by decide) fun c member => ?_
  rcases v.plain c member with alphanum | rfl
  · exact isWordChar_of_isAlphanum alphanum
  · decide

theorem list_token : ListToken v.token := .named v.spelled (v.no_word "where")

end ListedVariable

namespace ListedClause
variable (clause : ListedClause)

def listed : List ListedVariable := clause.entries.map Prod.snd

def words : List (Gap × Text) :=
  clause.modifier.toList ++ clause.entries.map fun (gap, v) => (gap, v.token)

def list : Text := wordsText clause.words ++ clause.gap.text

def text (rest : Text) : Text := clause.select ++ (clause.list ++ (clause.closing ++ rest))

end ListedClause

/-! ### The tokens of the list -/

section
variable {tokens : List Text} {gap s : Text}

theorem spread_behind (apart : ∀ c ∈ gap, separates c) (spread : Spread tokens s) :
    Spread tokens (gap ++ s) := by
  induction gap with
  | nil => exact spread
  | cons c gap ih =>
    exact .gap (apart c (by simp)) (ih fun d member => apart d (by simp [member]))

theorem gap_head (gap : Gap) (s : Text) : ∃ c t, gap.text ++ s = c :: t ∧ separates c := by
  obtain ⟨text, inhabited, apart⟩ := gap
  cases text with
  | nil => exact absurd rfl inhabited
  | cons c text => exact ⟨c, text ++ s, rfl, apart c (by simp)⟩

-- Behind every word of the list stands a gap: the one of the next word, or the last one.
theorem words_head (words : List (Gap × Text)) (last : Gap) :
    ∃ c t, wordsText words ++ last.text = c :: t ∧ separates c := by
  cases words with
  | nil => simpa [wordsText] using gap_head last []
  | cons word words =>
    simpa [wordsText, List.append_assoc] using
      gap_head word.1 (word.2 ++ (wordsText words ++ last.text))

theorem words_spread (words : List (Gap × Text)) (last : Gap) :
    Spread (words.map Prod.snd) (wordsText words ++ last.text) := by
  induction words with
  | nil => simpa [wordsText] using spread_behind last.apart .done
  | cons word words ih =>
    obtain ⟨c, t, head, apart⟩ := words_head words last
    have whole : wordsText (word :: words) ++ last.text =
        word.1.text ++ (word.2 ++ (wordsText words ++ last.text)) := by simp [wordsText]
    rw [head] at ih
    rw [whole, head]
    exact spread_behind word.1.apart (.token apart ih)

end

namespace ListedClause
variable (clause : ListedClause) {rest : Text}

theorem modifier_spelled :
    ∃ option, ModifierSpelled option (clause.modifier.toList.map Prod.snd) := by
  cases written : clause.modifier with
  | none => exact ⟨none, .none⟩
  | some word =>
    rcases clause.modifies word written with distinct | reduced
    · exact ⟨some .distinct, .distinct distinct⟩
    · exact ⟨some .reduced, .reduced reduced⟩

theorem words_tokens : clause.words.map Prod.snd =
    clause.modifier.toList.map Prod.snd ++ clause.listed.map ListedVariable.token := by
  simp [words, listed]

theorem words_kinds : ∀ token ∈ clause.words.map Prod.snd, ListToken token := by
  intro token member
  rw [words_tokens, List.mem_append] at member
  rcases member with inside | inside
  · obtain ⟨option, spelled⟩ := clause.modifier_spelled
    exact modifier_kinds spelled token inside
  · obtain ⟨v, -, rfl⟩ := List.mem_map.mp inside
    exact v.list_token

theorem between (ends : EndsWord rest) :
    betweenSelectAndWhere? (clause.text rest) = some clause.list := by
  obtain ⟨c, t, head, apart⟩ := words_head clause.words clause.gap
  have stops : ∀ d ∈ (clause.list ++ (clause.closing ++ rest)).head?, isNameChar d = false := by
    rw [list, head]
    rintro d ⟨⟩
    exact separator_not_name apart
  have inhabited : clause.list ≠ [] := by
    rw [list, head]
    exact List.cons_ne_nil c t
  have begins : beginsWithWord "where" (clause.closing ++ rest) := by
    have word := begins_word clause.closing ends
    rwa [show clause.closing.map foldCase = ("where" : Text) from
      keyword_folds (by decide) clause.closes] at word
  have closing : clause.closing ++ rest ≠ [] := by
    obtain ⟨d, more, _, _, same, _⟩ := keyword_head (by decide) clause.closes
    simp [same]
  change betweenSelectAndWhere? ([] ++ ([] ++ clause.text rest)) = some clause.list
  exact between_read clause.selects rfl rfl (.inl rfl) (by simp)
    (words_spread clause.words clause.gap) clause.words_kinds inhabited stops begins closing

theorem tokens : Text.tokensOn separates clause.list =
    clause.modifier.toList.map Prod.snd ++ clause.listed.map ListedVariable.token := by
  rw [← words_tokens]
  exact spread_tokens (words_spread clause.words clause.gap) clause.words_kinds

theorem projection_read (ends : EndsWord rest) (bindings : Bindings) :
    readProjection (clause.text rest) bindings =
      projectTokens bindings (clause.listed.map ListedVariable.token) := by
  obtain ⟨option, spelled⟩ := clause.modifier_spelled
  rw [readProjection, clause.between ends]
  dsimp only
  rw [show Text.tokensOn (fun c => c == ',' || isBlank c) clause.list = _ from clause.tokens,
    project_modifier spelled]

end ListedClause

/-! ### The variables, projected -/

def Shows (bindings : Bindings) (v : ListedVariable) (item : ProjectionItem) : Prop :=
  item.variableName = v.name ∧ bindings.get? v.name = some item.column

-- The first of the variables that has no column.
def FirstUnbound (bindings : Bindings) (listed : List ListedVariable) (v : ListedVariable) :
    Prop :=
  ∃ front back, listed = front ++ v :: back ∧
    (∀ u ∈ front, (bindings.get? u.name).isSome) ∧ bindings.get? v.name = none

section
variable {bindings : Bindings} {v : ListedVariable} {listed : List ListedVariable}
  {items : List ProjectionItem}

theorem variables_shown (shown : List.Forall₂ (Shows bindings) listed items) :
    projectTokens bindings (listed.map ListedVariable.token) = .ok items := by
  induction shown with
  | nil => rfl
  | @cons v item listed items here _ ih =>
    obtain ⟨name, column⟩ := item
    obtain ⟨rfl, found⟩ := here
    rw [List.map_cons, project_step (project_variable v.spelled found), ih]
    rfl

theorem first_refused (first : FirstUnbound bindings listed v) :
    projectTokens bindings (listed.map ListedVariable.token) = .error (.unbound v.token) := by
  obtain ⟨front, back, rfl, bound, unbound⟩ := first
  induction front with
  | nil =>
    have here : projectToken bindings v.token = .error (.unbound v.token) := by
      rw [project_spelled v.spelled, unbound]
    simp only [List.nil_append, List.map_cons, projectTokens, here]
    rfl
  | cons u front ih =>
    obtain ⟨column, found⟩ := Option.isSome_iff_exists.mp (bound u (by simp))
    rw [List.cons_append, List.map_cons, project_step (project_variable u.spelled found),
      ih fun other member => bound other (by simp [member])]
    rfl

-- Either all variables have a column, or one of them is the first without.
theorem shown_or_unbound (bindings : Bindings) (listed : List ListedVariable) :
    (∃ items, List.Forall₂ (Shows bindings) listed items) ∨
      ∃ v, FirstUnbound bindings listed v := by
  induction listed with
  | nil => exact .inl ⟨[], .nil⟩
  | cons v listed ih =>
    cases found : bindings.get? v.name with
    | none => exact .inr ⟨v, [], listed, rfl, by simp, found⟩
    | some column =>
      rcases ih with ⟨items, shown⟩ | ⟨u, front, back, rfl, bound, unbound⟩
      · exact .inl ⟨⟨v.name, column⟩ :: items, .cons ⟨rfl, found⟩ shown⟩
      · refine .inr ⟨u, v :: front, back, rfl, ?_, unbound⟩
        exact List.forall_mem_cons.mpr ⟨by rw [found]; rfl, bound⟩

theorem shown_iff : projectTokens bindings (listed.map ListedVariable.token) = .ok items ↔
    List.Forall₂ (Shows bindings) listed items := by
  refine ⟨fun read => ?_, variables_shown⟩
  rcases shown_or_unbound bindings listed with ⟨others, shown⟩ | ⟨v, first⟩
  · rw [variables_shown shown, Except.ok.injEq] at read
    rwa [← read]
  · rw [first_refused first] at read
    cases read

theorem refused_iff {error : ProjectionError} :
    projectTokens bindings (listed.map ListedVariable.token) = .error error ↔
      ∃ v, FirstUnbound bindings listed v ∧ error = .unbound v.token := by
  constructor
  · intro failed
    rcases shown_or_unbound bindings listed with ⟨items, shown⟩ | ⟨v, first⟩
    · rw [variables_shown shown] at failed
      cases failed
    · rw [first_refused first, Except.error.injEq] at failed
      exact ⟨v, first, failed.symm⟩
  · rintro ⟨v, first, rfl⟩
    exact first_refused first

end

-- The columns of the variables in written order, or the first variable without one. Neither a name
-- that spells a keyword nor what follows the WHERE changes that.
theorem listed_variables_read (clause : ListedClause) (bindings : Bindings) :
    ∃ outcome, (∀ rest, EndsWord rest → readProjection (clause.text rest) bindings = outcome) ∧
      (∀ items, outcome = .ok items ↔ List.Forall₂ (Shows bindings) clause.listed items) ∧
      ∀ error, outcome = .error error ↔
        ∃ v, FirstUnbound bindings clause.listed v ∧ error = .unbound v.token :=
  ⟨projectTokens bindings (clause.listed.map ListedVariable.token),
    fun _ ends => clause.projection_read ends bindings, fun _ => shown_iff, fun _ => refused_iff⟩

def repeatedKeywords : ListedClause where
  select := "SeLeCT"
  modifier := some (⟨"\n ", by decide, each_char (by decide)⟩, "reduced")
  entries := [
    (⟨" ", by decide, each_char (by decide)⟩,
      ⟨'?', "where", .inl rfl, by decide, each_char (by decide)⟩),
    (⟨" ,", by decide, each_char (by decide)⟩,
      ⟨'$', "select", .inr rfl, by decide, each_char (by decide)⟩),
    (⟨",", by decide, each_char (by decide)⟩,
      ⟨'?', "where", .inl rfl, by decide, each_char (by decide)⟩)]
  gap := ⟨" ", by decide, each_char (by decide)⟩
  closing := "wherE"
  selects := by decide
  modifies := by
    rintro word ⟨⟩
    exact .inr (by decide)
  closes := by decide

theorem repeated_keywords_read :
    readProjection "SeLeCT\n reduced ?where ,$select,?where wherE"
        [("select", ⟨2, .object⟩), ("where", ⟨1, .subject⟩)] =
      .ok [⟨"where", ⟨1, .subject⟩⟩, ⟨"select", ⟨2, .object⟩⟩, ⟨"where", ⟨1, .subject⟩⟩] ∧
    readProjection "SeLeCT\n reduced ?where ,$select,?where wherE\x7b ?where select ?x \x7d"
        [("where", ⟨1, .subject⟩)] = .error (.unbound "$select") := by
  constructor
  · obtain ⟨outcome, read, shown, -⟩ := listed_variables_read repeatedKeywords
      [("select", ⟨2, .object⟩), ("where", ⟨1, .subject⟩)]
    have ends : EndsWord [] := by
      rintro c ⟨⟩
    have written : ("SeLeCT\n reduced ?where ,$select,?where wherE" : Text) =
        repeatedKeywords.text [] := by decide
    rw [written, read [] ends, shown]
    exact .cons ⟨rfl, rfl⟩ (.cons ⟨rfl, rfl⟩ (.cons ⟨rfl, rfl⟩ .nil))
  · obtain ⟨outcome, read, -, refused⟩ := listed_variables_read repeatedKeywords
      [("where", ⟨1, .subject⟩)]
    have ends : EndsWord "\x7b ?where select ?x \x7d" := by
      rintro c ⟨⟩
      decide
    have written :
        ("SeLeCT\n reduced ?where ,$select,?where wherE\x7b ?where select ?x \x7d" : Text) =
          repeatedKeywords.text "\x7b ?where select ?x \x7d" := by decide
    rw [written, read _ ends, refused]
    refine ⟨_, ⟨[_], [_], rfl, ?_, rfl⟩, rfl⟩
    exact List.forall_mem_singleton.mpr rfl

end TripleTable.Plan
