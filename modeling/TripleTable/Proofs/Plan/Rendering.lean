import TripleTable.Proofs.Plan.Answers
import TripleTable.Proofs.Plan.Classification
import TripleTable.Proofs.Plan.Readings
set_option autoImplicit false

/-!
A planned query can be arranged as a statement: its first table stands alone, every other one is
joined on a condition, and something is selected. The last can fail, as the list of variables is
read from the text between the first SELECT and the first WHERE, and a prologue may hold both words
with nothing between them.
-/
namespace TripleTable.Plan
open Sparql Sparql.Reader

-- The text between SELECT and WHERE names no variable, not even by a star.
def ListsNothing (s : Text) : Prop :=
  ∃ list, betweenSelectAndWhere? s = some list ∧
    ∀ token ∈ Text.tokensOn separates list, isModifier token

-- The first SELECT and the first WHERE both lie in the prologue.
def WordsInPrologue (s : Text) : Prop :=
  ∃ declared front selectAt whereAt, prologue s = .ok (declared, front) ∧
    findWord? "select" none s = some selectAt ∧ findWord? "where" none s = some whereAt ∧
    selectAt + 6 ≤ whereAt ∧ whereAt + front.length < s.length

/-! ### Where a word is found -/

section
variable {word front s : Text} {before : Option Char} {k : Nat}

theorem find_begins (found : findWord? word before s = some k) :
    beginsWithWord word (s.drop k) ∧ k < s.length := by
  induction s generalizing before k with
  | nil => cases found
  | cons c s ih =>
    rw [findWord?] at found
    split at found
    · rename_i here
      cases found
      simp only [Bool.and_eq_true] at here
      exact ⟨here.2, by simp⟩
    · obtain ⟨later, behind, rfl⟩ := Option.map_eq_some_iff.mp found
      obtain ⟨begins, inside⟩ := ih behind
      exact ⟨begins, by simpa using inside⟩

-- A word that stands behind `front` is found there or before.
theorem find_first (opens : opensWord (lastOr before front)) (begins : beginsWithWord word s)
    (inhabited : s ≠ []) : ∃ k ≤ front.length, findWord? word before (front ++ s) = some k := by
  induction front generalizing before with
  | nil =>
    cases s with
    | nil => exact absurd rfl inhabited
    | cons c s => exact ⟨0, Nat.le_refl 0, find_here opens begins⟩
  | cons d front ih =>
    rw [last_or_cons] at opens
    obtain ⟨k, within, found⟩ := ih opens
    rw [List.cons_append, findWord?]
    split
    · exact ⟨0, Nat.zero_le _, rfl⟩
    · exact ⟨k + 1, by simpa using within, by rw [found]; rfl⟩

theorem where_head (begins : beginsWithWord "where" s) : ∃ c ∈ s.head?, foldCase c = 'w' := by
  cases s with
  | nil => cases begins
  | cons c s =>
    have letters : ("where" : Text) = 'w' :: "here".toList := by decide
    rw [letters, beginsWithWord, Bool.and_eq_true, beq_iff_eq] at begins
    exact ⟨c, rfl, begins.1⟩

theorem last_or_append (before : Option Char) (front more : Text) :
    lastOr before (front ++ more) = lastOr (lastOr before front) more := by
  rw [lastOr, lastOr, lastOr, List.getLast?_append, Option.or_assoc]

theorem lead_opens {gap : Text} (ends : front = [] ∨ EndsDeclaration front)
    (blanks : ∀ c ∈ gap, isSpace c) : opensWord (lastOr none (front ++ gap)) := by
  rw [last_or_append]
  refine last_or_opens ?_ blanks
  rcases ends with rfl | ⟨more, c, rfl, kind⟩
  · rfl
  · have all : ∀ d ∈ leadChars, opensWord (some d) := each_char (by decide)
    rw [lastOr, List.getLast?_concat]
    rcases kind with rfl | space
    · decide
    · exact all c (space_lead space)

end

/-! ### The first mark of a list -/

section
variable {rest s : Text} {tokens : List Text}

theorem list_first {token : Text} (text : ListText rest (token :: tokens) s) :
    ∃ gap t, s = gap ++ (token ++ t) ∧ (∀ c ∈ gap, c ∈ gapChars) ∧ ListText rest tokens t := by
  generalize whole : token :: tokens = all at text
  induction text with
  | done => cases whole
  | @gap c others s member _ ih =>
    obtain ⟨gap, t, rfl, gaps, behind⟩ := ih whole
    exact ⟨c :: gap, t, rfl, List.forall_mem_cons.mpr ⟨member, gaps⟩, behind⟩
  | @token first others s _ behind _ =>
    cases whole
    exact ⟨[], s, rfl, by simp, behind⟩

theorem tokens_mark {listed : Projection} (spelled : ListTokens listed tokens)
    (text : ListText rest tokens s) :
    ∃ gap mark t, s = gap ++ mark :: t ∧ isListMark mark ∧ ∀ c ∈ gap, c ∈ gapChars := by
  cases listed with
  | all =>
    cases spelled
    obtain ⟨gap, t, rfl, gaps, -⟩ := list_first text
    exact ⟨gap, '*', t, rfl, by decide, gaps⟩
  | named names =>
    obtain ⟨inhabited, spelled⟩ := spelled
    cases spelled with
    | nil => exact absurd rfl inhabited
    | cons first _ =>
      obtain ⟨-, sigil, kind, rfl⟩ := first
      obtain ⟨gap, t, rfl, gaps, -⟩ := list_first text
      refine ⟨gap, sigil, _, rfl, ?_, gaps⟩
      rcases kind with rfl | rfl <;> decide

-- In front of the first star or variable stand blanks, commas and the modifier.
theorem clause_mark {option : Option Modifier} {listed : Projection} {front : List Text}
    (modified : ModifierSpelled option front) (spelled : ListTokens listed tokens)
    (text : ListText rest (front ++ tokens) s) :
    ∃ lead mark t, s = lead ++ mark :: t ∧ isListMark mark ∧
      ∀ c ∈ lead, c ∈ gapChars ∨ (c.isAlpha ∧ foldCase c ≠ 'w') := by
  have behind_word : ∀ {word token : Text}, isWord word → IsKeyword word token →
      (Text.asciiLower word).all isAscii → 'w' ∉ Text.asciiLower word → front = [token] →
      ∃ lead mark t, s = lead ++ mark :: t ∧ isListMark mark ∧
        ∀ c ∈ lead, c ∈ gapChars ∨ (c.isAlpha ∧ foldCase c ≠ 'w') := by
    rintro word token letters same ascii absent rfl
    obtain ⟨gap, t, rfl, gaps, behind⟩ := list_first text
    obtain ⟨more, mark, u, rfl, marked, more_gaps⟩ := tokens_mark spelled behind
    refine ⟨gap ++ (token ++ more), mark, u, by simp, marked, fun c member => ?_⟩
    rcases List.mem_append.mp member with inside | inside
    · exact .inl (gaps c inside)
    · rcases List.mem_append.mp inside with inside | inside
      · exact .inr ⟨keyword_letters letters same c inside, keyword_fold_other ascii same absent c inside⟩
      · exact .inl (more_gaps c inside)
  cases modified with
  | none =>
    obtain ⟨gap, mark, t, rfl, marked, gaps⟩ := tokens_mark spelled text
    exact ⟨gap, mark, t, rfl, marked, fun c member => .inl (gaps c member)⟩
  | distinct same => exact behind_word (by decide) same (by decide) (by decide) rfl
  | reduced same => exact behind_word (by decide) same (by decide) (by decide) rfl

theorem piece_of {p : Char → Bool} {c : Char} (solid : p c = false) (member : c ∈ s) :
    ∃ piece ∈ Text.splitOn p s, c ∈ piece := by
  induction s with
  | nil => cases member
  | cons d s ih =>
    rw [Text.splitOn]
    split
    · rename_i separator
      rcases List.mem_cons.mp member with rfl | inside
      · rw [solid] at separator
        cases separator
      · obtain ⟨piece, listed, inside⟩ := ih inside
        exact ⟨piece, by simp [listed], inside⟩
    · cases split : Text.splitOn p s with
      | nil => exact absurd split (Text.splitOn_ne_nil p s)
      | cons first pieces =>
        rcases List.mem_cons.mp member with rfl | inside
        · exact ⟨c :: first, by simp, by simp⟩
        · obtain ⟨piece, listed, inside⟩ := ih inside
          rw [split] at listed
          rcases List.mem_cons.mp listed with rfl | later
          · exact ⟨d :: piece, by simp, by simp [inside]⟩
          · exact ⟨piece, by simp [later], inside⟩

theorem modifier_unmarked {token : Text} (modifier : isModifier token) {c : Char}
    (member : c ∈ token) : isListMark c = false := by
  have lower : c.toLower ∈ "distinct".toList ++ "reduced".toList := by
    have inside : c.toLower ∈ Text.asciiLower token := List.mem_map_of_mem member
    rw [isModifier, Bool.or_eq_true, beq_iff_eq, beq_iff_eq] at modifier
    rcases modifier with same | same
    · rw [same] at inside
      exact List.mem_append_left _ inside
    · rw [same] at inside
      exact List.mem_append_right _ inside
  simp only [isListMark, isSigil, Bool.or_eq_false_iff, beq_eq_false_iff_ne]
  refine ⟨⟨?_, ?_⟩, ?_⟩ <;>
  · rintro rfl
    exact absurd lower (by decide)

theorem modifiers_unmarked {p : Char → Bool}
    (modifiers : ∀ token ∈ Text.tokensOn p s, isModifier token) {c : Char} (member : c ∈ s)
    (solid : p c = false) : isListMark c = false := by
  obtain ⟨piece, listed, inside⟩ := piece_of solid member
  have token : piece ∈ Text.tokensOn p s := by
    refine List.mem_filter.mpr ⟨listed, ?_⟩
    cases piece with
    | nil => cases inside
    | cons _ _ => rfl
  exact modifier_unmarked (modifiers piece token) inside

end

/-! ### A list without a mark -/

section
variable {s rest : Text}

theorem head_within {c mark : Char} {mid t : Text} {k : Nat} (within : k ≤ mid.length)
    (head : c ∈ ((mid ++ mark :: t).drop k).head?) : c ∈ mid ++ [mark] := by
  have inside : k < (mid ++ [mark]).length := by
    simp only [List.length_append, List.length_singleton]
    omega
  have whole : mid ++ mark :: t = (mid ++ [mark]) ++ t := by simp
  rw [whole, List.head?_drop, List.getElem?_append_left inside] at head
  exact List.mem_of_getElem? head

theorem mark_between {front mid t : Text} {mark : Char} {start stop : Nat}
    (low : start ≤ (front ++ mid).length) (high : (front ++ mid).length < stop) :
    mark ∈ ((front ++ (mid ++ mark :: t)).take stop).drop start := by
  obtain ⟨k, reach⟩ := Nat.exists_eq_add_of_le low
  refine List.mem_of_getElem? (i := k) ?_
  rw [List.getElem?_drop, ← reach, List.getElem?_take_of_lt high, ← List.append_assoc,
    List.getElem?_append_right (Nat.le_refl _), Nat.sub_self]
  rfl

theorem between_found {list : Text} (found : betweenSelectAndWhere? s = some list) :
    ∃ selectAt whereAt, findWord? "select" none s = some selectAt ∧
      findWord? "where" none s = some whereAt ∧ selectAt + 6 ≤ whereAt ∧
      list = (s.take whereAt).drop (selectAt + 6) := by
  unfold betweenSelectAndWhere? at found
  split at found
  · rename_i selectAt whereAt select_found where_found
    split at found
    · cases found
    · exact ⟨selectAt, whereAt, select_found, where_found, by omega, (Option.some.inj found).symm⟩
  · cases found

theorem mark_not_word {c : Char} (mark : isListMark c) : isWordChar c = false := by
  simp only [isListMark, isSigil, Bool.or_eq_true, beq_iff_eq] at mark
  rcases mark with (rfl | rfl) | rfl <;> decide

theorem mark_solid {c : Char} (mark : isListMark c) : separates c = false := by
  simp only [isListMark, isSigil, Bool.or_eq_true, beq_iff_eq] at mark
  rcases mark with (rfl | rfl) | rfl <;> decide

theorem mark_other {c : Char} (mark : isListMark c) : foldCase c ≠ 'w' := by
  simp only [isListMark, isSigil, Bool.or_eq_true, beq_iff_eq] at mark
  rcases mark with (rfl | rfl) | rfl <;> decide

-- The keyword of the clause ends where it ends for the parser.
theorem clause_begins {word lead : Text} {mark : Char} (same : IsKeyword "SELECT" word)
    (plain : ∀ c ∈ lead, c ∈ gapChars ∨ (c.isAlpha ∧ foldCase c ≠ 'w')) (marked : isListMark mark)
    (stops : ∀ c ∈ (lead ++ mark :: rest).head?, isNameChar c = false) :
    beginsWithWord "select" (word ++ (lead ++ mark :: rest)) := by
  have ends : ∀ c ∈ (lead ++ mark :: rest).head?, isWordChar c = false := by
    intro c head
    cases lead with
    | nil =>
      cases head
      exact mark_not_word marked
    | cons d lead =>
      cases head
      rcases plain c (by simp) with gap | ⟨letter, -⟩
      · exact separator_not_word (gap_separates gap)
      · have name : isNameChar c = true := letter_name letter
        rw [stops c rfl] at name
        cases name
  have begins := begins_word word ends
  rwa [show word.map foldCase = ("select" : Text) from keyword_folds (by decide) same] at begins

-- A clause that is read from its own keyword shows its first mark, so a WHERE in front of that
-- mark belongs to the prologue, and so does the SELECT in front of it.
theorem prologue_holds_words {q : SelectQuery} (read : selectQuery s = .ok (q, rest))
    (nothing : ListsNothing s) : WordsInPrologue s := by
  obtain ⟨declared, front, declarations, read⟩ := bind_read read
  obtain ⟨⟨option, listed⟩, back, clause, -⟩ := bind_read read
  obtain ⟨lead, rfl, ends⟩ := prologue_text declarations
  obtain ⟨word, list, modifiers, tokens, split, same, stops, modified, spelled, text⟩ :=
    clause_list (within_read clause)
  obtain ⟨before_mark, mark, t, rfl, marked, plain⟩ := clause_mark modified spelled text
  obtain ⟨between, found, modifiers_only⟩ := nothing
  obtain ⟨selectAt, whereAt, select_found, where_found, apart, rfl⟩ := between_found found
  let gap := front.takeWhile isSpace
  let mid := gap ++ (word ++ before_mark)
  have blanks : ∀ c ∈ gap, isSpace c := fun c member => List.mem_takeWhile_imp member
  have behind : front = gap ++ (word ++ (before_mark ++ mark :: (t ++ back))) := by
    rw [← List.takeWhile_append_dropWhile (p := isSpace) (l := front), split]
    simp [gap]
  have whole : front = mid ++ mark :: (t ++ back) := by
    rw [behind]
    simp [mid]
  have near : selectAt ≤ (lead ++ gap).length := by
    have begins : beginsWithWord "select" (word ++ (before_mark ++ mark :: (t ++ back))) :=
      clause_begins same plain marked (by simpa using stops)
    obtain ⟨k, within, first⟩ := find_first (lead_opens ends blanks) begins (by simp)
    rw [List.append_assoc, ← behind, select_found] at first
    cases first
    exact within
  have other : ∀ c ∈ mid ++ [mark], foldCase c ≠ 'w' := by
    intro c member
    simp only [mid, List.mem_append, List.mem_singleton] at member
    rcases member with (space | letter | inside) | rfl
    · exact separator_other (gap_separates (space_gap (blanks c space)))
    · exact keyword_fold_other (by decide) same (by decide) c letter
    · rcases plain c inside with space | ⟨-, letter⟩
      · exact separator_other (gap_separates space)
      · exact letter
    · exact mark_other marked
  have early : whereAt < lead.length := by
    by_contra late
    have behind_mark : (lead ++ mid).length < whereAt := by
      by_contra low
      obtain ⟨k, rfl⟩ := Nat.exists_eq_add_of_le (Nat.le_of_not_lt late)
      obtain ⟨c, head, letter⟩ := where_head (find_begins where_found).1
      rw [List.length_append] at low
      rw [List.drop_length_add_append, whole] at head
      exact other c (head_within (by omega) head) letter
    have shown : mark ∈ ((lead ++ front).take whereAt).drop (selectAt + 6) := by
      rw [whole]
      refine mark_between ?_ behind_mark
      have six : word.length = 6 := by
        have lengths := congrArg List.length (same : Text.asciiLower word = _)
        simpa [Text.asciiLower] using lengths
      simp only [mid, List.length_append, six] at near ⊢
      omega
    have hidden := modifiers_unmarked modifiers_only shown (mark_solid marked)
    rw [marked] at hidden
    cases hidden
  refine ⟨declared, front, selectAt, whereAt, declarations, select_found, where_found, apart, ?_⟩
  rw [List.length_append]
  omega

end

/-! ### What is selected -/

section
variable {bindings : Bindings} {tokens : List Text} {items : List ProjectionItem}

theorem project_modifiers (modifiers : ∀ token ∈ tokens, isModifier token) :
    projectTokens bindings tokens = .ok [] := by
  induction tokens with
  | nil => rfl
  | cons token tokens ih =>
    obtain ⟨first, others⟩ := List.forall_mem_cons.mp modifiers
    rw [modifier_skipped first, ih others]

theorem token_selects {token : Text} (other : isModifier token = false) (bound : bindings ≠ [])
    (projected : projectToken bindings token = .ok items) : items ≠ [] := by
  rw [projectToken, other, if_neg Bool.false_ne_true] at projected
  split at projected
  · cases projected
    simpa using bound
  · dsimp only at projected
    split at projected <;> cases projected
    simp

theorem project_nothing (bound : bindings ≠ []) (projected : projectTokens bindings tokens = .ok []) :
    ∀ token ∈ tokens, isModifier token := by
  induction tokens with
  | nil => simp
  | cons token tokens ih =>
    cases here : projectToken bindings token with
    | error reason => simp [projectTokens, here, bind, Except.bind] at projected
    | ok items =>
      rw [project_step here] at projected
      cases behind : projectTokens bindings tokens with
      | error reason =>
        rw [behind] at projected
        cases projected
      | ok more =>
        rw [behind] at projected
        have empty : items ++ more = [] := Except.ok.inj projected
        obtain ⟨rfl, rfl⟩ := List.append_eq_nil_iff.mp empty
        refine List.forall_mem_cons.mpr ⟨?_, ih behind⟩
        by_contra other
        exact token_selects (by simpa using other) bound here rfl

theorem projection_empty {s : Text} (bound : bindings ≠ [])
    (read : readProjection s bindings = .ok items) : items = [] ↔ ListsNothing s := by
  unfold readProjection at read
  split at read
  · cases read
  · rename_i list between
    constructor
    · rintro rfl
      exact ⟨list, between, project_nothing bound read⟩
    · rintro ⟨other, same, modifiers⟩
      obtain rfl := Option.some.inj (between.symm.trans same)
      exact Except.ok.inj (read.symm.trans (project_modifiers modifiers))

end

theorem resolved_binds {triples : List Pattern.Triple} {p : JoinPlan}
    (resolved : resolve triples = .ok p) : p.bindings ≠ [] := by
  obtain ⟨placed, -, after, perm⟩ := resolve_placed resolved
  obtain ⟨anchor, rest, rfl, -, named, -⟩ := resolve_accepted resolved
  obtain ⟨name, listed⟩ := List.exists_mem_of_ne_nil _ named
  obtain ⟨role, term⟩ := (variable_names anchor name).mp listed
  have known := after.known anchor (perm.mem_iff.mpr (by simp)) role name term
  intro empty
  rw [empty] at known
  cases known

/-! ### Planned queries -/

section
variable {s : Text} {plan : QueryPlan}

theorem planned_read (planned : planQuery s = .ok plan) :
    ∃ q, parseQuery (stripComments s) = .ok q ∧
      resolve (Pattern.ofGroup q.prologue q.pattern) = .ok plan.joinPlan ∧
      readProjection (stripComments s) plan.joinPlan.bindings = .ok plan.projection := by
  unfold planQuery at planned
  cases parsed : parseQuery (stripComments s) with
  | error trace => simp [parsed, Except.mapError, bind, Except.bind] at planned
  | ok q =>
    cases resolved : resolve (Pattern.ofGroup q.prologue q.pattern) with
    | error defect => simp [parsed, resolved, Except.mapError, bind, Except.bind] at planned
    | ok joinPlan =>
      cases projected : readProjection (stripComments s) joinPlan.bindings with
      | error reason =>
        simp [parsed, resolved, projected, Except.mapError, bind, Except.bind] at planned
      | ok items =>
        simp only [parsed, resolved, projected, Except.mapError, bind, Except.bind, pure,
          Except.pure, Except.ok.injEq] at planned
        subst planned
        exact ⟨q, rfl, resolved, projected⟩

theorem plan_not_refused (error : RenderError) : planQuery s ≠ .error (.render error) := by
  unfold planQuery
  cases parsed : parseQuery (stripComments s) with
  | error trace => simp [parsed, Except.mapError, bind, Except.bind]
  | ok q =>
    cases resolved : resolve (Pattern.ofGroup q.prologue q.pattern) with
    | error defect => simp [parsed, resolved, Except.mapError, bind, Except.bind]
    | ok joinPlan =>
      cases projected : readProjection (stripComments s) joinPlan.bindings with
      | error reason =>
        cases reason <;>
          simp [parsed, resolved, projected, TranslateError.ofProjection, Except.mapError, bind,
            Except.bind]
      | ok items =>
        simp [parsed, resolved, projected, Except.mapError, bind, Except.bind, pure, Except.pure]

theorem plan_arranged (planned : planQuery s = .ok plan) (selects : plan.projection ≠ []) :
    ∃ p, SelectPlan.ofQueryPlan plan = .ok p := by
  obtain ⟨q, -, resolved, -⟩ := planned_read planned
  obtain ⟨placed, inhabited, after, -⟩ := resolve_placed resolved
  obtain ⟨root, rest, entries, -, joined⟩ := JoinPlan.placed_root after inhabited
  obtain ⟨p, arranged, -⟩ := SelectPlan.of_query_plan selects entries joined
  exact ⟨p, arranged⟩

theorem plan_empty (planned : planQuery s = .ok plan) :
    plan.projection = [] ↔ ListsNothing (stripComments s) := by
  obtain ⟨q, -, resolved, read⟩ := planned_read planned
  exact projection_empty (resolved_binds resolved) read

theorem translate_planned (planned : planQuery s = .ok plan) :
    translate s = ((SelectPlan.ofQueryPlan plan).mapError TranslateError.render).map fun p =>
      ⟨p.text, p⟩ := by
  simp only [translate, planned, bind, Except.bind]
  cases SelectPlan.ofQueryPlan plan <;> rfl

theorem missing_items (empty : plan.projection = []) :
    SelectPlan.ofQueryPlan plan = .error .missingItems := by
  rw [SelectPlan.ofQueryPlan, if_pos empty]

end

-- Of the three reasons to refuse a plan, only the empty list is ever met.
theorem planned_queries_render (s : Text) :
    (∀ plan, planQuery s = .ok plan → ¬ListsNothing (stripComments s) →
      ∃ p, SelectPlan.ofQueryPlan plan = .ok p ∧ translate s = .ok ⟨p.text, p⟩) ∧
    (∀ plan, planQuery s = .ok plan → ListsNothing (stripComments s) →
      WordsInPrologue (stripComments s) ∧ SelectPlan.ofQueryPlan plan = .error .missingItems) ∧
    ∀ error, translate s = .error (.render error) ↔
      error = .missingItems ∧ (∃ plan, planQuery s = .ok plan) ∧ ListsNothing (stripComments s) := by
  have fine : ∀ plan, planQuery s = .ok plan → ¬ListsNothing (stripComments s) →
      ∃ p, SelectPlan.ofQueryPlan plan = .ok p ∧ translate s = .ok ⟨p.text, p⟩ := by
    intro plan planned lists
    obtain ⟨p, arranged⟩ := plan_arranged planned (mt (plan_empty planned).mp lists)
    refine ⟨p, arranged, ?_⟩
    rw [translate_planned planned, arranged]
    rfl
  refine ⟨fine, fun plan planned nothing => ?_, fun error => ⟨fun refused => ?_, ?_⟩⟩
  · obtain ⟨q, accepted, -⟩ := planned_read planned
    obtain ⟨rest, read⟩ := parsed_query accepted
    exact ⟨prologue_holds_words read nothing, missing_items ((plan_empty planned).mpr nothing)⟩
  · cases planned : planQuery s with
    | error reason =>
      have same : translate s = .error reason := by
        rw [translate, planned]
        rfl
      rw [refused] at same
      cases same
      exact absurd planned (plan_not_refused error)
    | ok plan =>
      have nothing : ListsNothing (stripComments s) := by
        by_contra lists
        obtain ⟨p, -, translated⟩ := fine plan planned lists
        rw [refused] at translated
        cases translated
      rw [translate_planned planned, missing_items ((plan_empty planned).mpr nothing)] at refused
      cases refused
      exact ⟨rfl, ⟨plan, rfl⟩, nothing⟩
  · rintro ⟨rfl, ⟨plan, planned⟩, nothing⟩
    rw [translate_planned planned, missing_items ((plan_empty planned).mpr nothing)]
    rfl

section
def pathQuery : Text := "SELECT DISTINCT ?x WHERE \x7b ?x <p> ?y . ?y <q> ?z \x7d"

theorem path_query_renders :
    ∃ plan p, planQuery pathQuery = .ok plan ∧ SelectPlan.ofQueryPlan plan = .ok p ∧
      translate pathQuery = .ok ⟨p.text, p⟩ := by
  have accepted : (planQuery pathQuery).toOption.isSome := by decide +kernel
  have lists : ¬ListsNothing (stripComments pathQuery) := by
    rintro ⟨list, between, modifiers⟩
    have same : betweenSelectAndWhere? (stripComments pathQuery) = some " DISTINCT ?x ".toList := by
      decide +kernel
    obtain rfl := Option.some.inj (same.symm.trans between)
    exact absurd (modifiers "?x" (by decide)) (by decide)
  cases planned : planQuery pathQuery with
  | error reason =>
    rw [planned] at accepted
    cases accepted
  | ok plan =>
    obtain ⟨p, arranged, translated⟩ := (planned_queries_render pathQuery).1 plan planned lists
    exact ⟨plan, p, rfl, arranged, translated⟩

-- The namespace of a prefix is an IRI that holds both words.
def namespaceWords : Text := "PREFIX e: <select,where> SELECT ?x WHERE \x7b ?x <p> ?y \x7d"

theorem namespace_words_select_nothing :
    (∃ plan, planQuery namespaceWords = .ok plan ∧
      SelectPlan.ofQueryPlan plan = .error .missingItems) ∧
    translate namespaceWords = .error (.render .missingItems) := by
  have planned : planQuery namespaceWords = .ok ⟨false, [], ⟨[⟨"p", 1, none, []⟩], [],
      [("x", ⟨1, .subject⟩), ("y", ⟨1, .object⟩)]⟩⟩ := by
    decide +kernel
  refine ⟨⟨_, planned, rfl⟩, ?_⟩
  rw [translate_planned planned]
  rfl

end
end TripleTable.Plan
