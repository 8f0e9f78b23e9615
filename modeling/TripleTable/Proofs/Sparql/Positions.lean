import TripleTable.Proofs.Sparql.Consumption
set_option autoImplicit false

/-!
Where readers stand. A reader that succeeds leaves an end of its text; one that gives up reports the
places where it stood, each of them an end of the text at the next one outwards. What it reports of
a prefix, and every prefixed name that it returns, is written in the text.
-/
namespace TripleTable.Sparql

-- A trace with at least one entry, all within `s`, and each where the next one outwards stands or
-- further on.
structure Nested (s : Text) (trace : Trace) : Prop where
  inhabited : trace ≠ []
  within : ∀ entry ∈ trace, entry.rest <:+ s
  outwards : trace.Pairwise fun inner outer => inner.rest <:+ outer.rest

section
variable {s u : Text} {trace : Trace}

theorem nested_entry (behind : u <:+ s) (context : String) : Nested s [⟨context, u⟩] := by
  refine ⟨by simp, ?_, List.pairwise_singleton _ _⟩
  intro entry member
  rw [List.mem_singleton.mp member]
  exact behind

theorem nested_here (s : Text) (context : String) : Nested s [⟨context, s⟩] :=
  nested_entry List.suffix_rfl context

theorem Nested.earlier (nested : Nested u trace) (behind : u <:+ s) : Nested s trace :=
  ⟨nested.inhabited, fun entry member => (nested.within entry member).trans behind, nested.outwards⟩

theorem Nested.pushed (nested : Nested s trace) (context : String) :
    Nested s (trace ++ [⟨context, s⟩]) := by
  have outer := nested_here s context
  refine ⟨by simp, List.forall_mem_append.mpr ⟨nested.within, outer.within⟩, ?_⟩
  refine List.pairwise_append.mpr ⟨nested.outwards, outer.outwards, ?_⟩
  intro inner member entry last
  rw [List.mem_singleton.mp last]
  exact nested.within inner member

end

namespace Reader

section
variable {α β : Type}

-- What a reading that starts at `s` may come to: a value in `P` and an end of `s`, or a trace that
-- is nested in `s`.
inductive Stays (P : α → Prop) (s : Text) : Except Halt (α × Text) → Prop
  | reads {value : α} {rest : Text} (behind : rest <:+ s) (holds : P value) :
    Stays P s (.ok (value, rest))
  | halts {halt : Halt} (nested : Nested s halt.trace) : Stays P s (.error halt)

-- From every place of the text `t`.
def Keeps (t : Text) (P : α → Prop) (r : Reader α) : Prop := ∀ ⦃s⦄, s <:+ t → Stays P s (r s)

abbrev Forward (t : Text) (r : Reader α) : Prop := Keeps t (fun _ => True) r

variable {t s u : Text} {P : α → Prop} {Q : β → Prop} {r item : Reader α} {separator : Reader β}

theorem Stays.earlier {x : Except Halt (α × Text)} (stays : Stays P u x) (behind : u <:+ s) :
    Stays P s x := by
  cases stays with
  | reads later holds => exact .reads (later.trans behind) holds
  | halts nested => exact .halts (nested.earlier behind)

theorem Stays.imp {P' : α → Prop} {x : Except Halt (α × Text)} (stays : Stays P s x)
    (each : ∀ value, P value → P' value) : Stays P' s x := by
  cases stays with
  | reads behind holds => exact .reads behind (each _ holds)
  | halts nested => exact .halts nested

theorem Keeps.imp {P' : α → Prop} (keeps : Keeps t P r) (each : ∀ value, P value → P' value) :
    Keeps t P' r :=
  fun _ inside => (keeps inside).imp each

theorem Keeps.forward (keeps : Keeps t P r) : Forward t r := keeps.imp fun _ _ => trivial

theorem Keeps.read {value : α} {rest : Text} (keeps : Keeps t P r) (inside : s <:+ t)
    (read : r s = .ok (value, rest)) : rest <:+ s ∧ P value := by
  have stays := keeps inside
  rw [read] at stays
  cases stays with
  | reads behind holds => exact ⟨behind, holds⟩

theorem Keeps.nested {halt : Halt} (keeps : Keeps t P r) (inside : s <:+ t)
    (fails : r s = .error halt) : Nested s halt.trace := by
  have stays := keeps inside
  rw [fails] at stays
  cases stays with
  | halts nested => exact nested

theorem keeps_pure {value : α} (holds : P value) : Keeps t P (pure value : Reader α) :=
  fun _ _ => .reads List.suffix_rfl holds

theorem Keeps.bind {p : Reader α} {f : α → Reader β} (first : Keeps t P p)
    (behind : ∀ value, P value → Keeps t Q (f value)) : Keeps t Q (p >>= f) := by
  intro s inside
  cases found : p s with
  | error halt =>
    rw [bind_error found]
    exact .halts (first.nested inside found)
  | ok pair =>
    obtain ⟨later, holds⟩ := first.read inside found
    rw [bind_ok found]
    exact (behind pair.1 holds (later.trans inside)).earlier later

theorem Keeps.map {f : α → β} (keeps : Keeps t P r) (each : ∀ value, P value → Q (f value)) :
    Keeps t Q (f <$> r) :=
  keeps.bind fun value holds => keeps_pure (each value holds)

theorem Keeps.within (keeps : Keeps t P r) (context : String) : Keeps t P (within context r) := by
  intro s inside
  have stays := keeps inside
  unfold Reader.within
  generalize r s = x at stays ⊢
  cases stays with
  | reads behind holds => exact .reads behind holds
  | @halts halt nested =>
    cases halt with
    | recoverable trace => exact .halts (nested.pushed context)
    | final trace => exact .halts (nested.pushed context)

theorem Keeps.commit (keeps : Keeps t P r) : Keeps t P (commit r) := by
  intro s inside
  have stays := keeps inside
  unfold Reader.commit
  generalize r s = x at stays ⊢
  cases stays with
  | reads behind holds => exact .reads behind holds
  | halts nested => exact .halts nested

theorem Keeps.optional (keeps : Keeps t P r) : Forward t (optional r) := by
  intro s inside
  have stays := keeps inside
  unfold Reader.optional
  generalize r s = x at stays ⊢
  cases stays with
  | reads behind holds => exact .reads behind trivial
  | @halts halt nested =>
    cases halt with
    | recoverable trace => exact .reads List.suffix_rfl trivial
    | final trace => exact .halts nested

theorem keeps_last (keeps : Keeps t P r) : Keeps t P (firstOf [r]) := by
  intro s inside
  have stays := keeps inside
  simp only [firstOf]
  generalize r s = x at stays ⊢
  cases stays with
  | reads behind holds => exact .reads behind holds
  | @halts halt nested =>
    cases halt with
    | recoverable trace => exact .halts (nested.pushed _)
    | final trace => exact .halts nested

theorem Keeps.or {next : Reader α} {others : List (Reader α)} (first : Keeps t P r)
    (later : Keeps t P (firstOf (next :: others))) : Keeps t P (firstOf (r :: next :: others)) := by
  intro s inside
  have stays := first inside
  have behind := later inside
  simp only [firstOf] at behind ⊢
  generalize r s = x at stays ⊢
  cases stays with
  | reads rest holds => exact .reads rest holds
  | @halts halt nested =>
    cases halt with
    | recoverable trace => exact behind
    | final trace => exact .halts nested

theorem Keeps.matched (keeps : Keeps t P r) : Forward t (matched r) := by
  intro s inside
  have stays := keeps inside
  unfold Reader.matched
  generalize r s = x at stays ⊢
  cases stays with
  | reads behind holds => exact .reads behind trivial
  | halts nested => exact .halts nested

theorem keeps_run (p : Char → Bool) : Forward t (run p) :=
  fun _ _ => .reads (List.dropWhile_suffix p) trivial

theorem Keeps.spaced (keeps : Keeps t P r) : Keeps t P (spaced r) :=
  (keeps_run isSpace).bind fun _ _ => keeps.bind fun _ holds =>
    (keeps_run isSpace).bind fun _ _ => keeps_pure holds

theorem keeps_char (c : Char) : Forward t (char c) := by
  intro s inside
  unfold char
  split
  · split
    · exact .reads (List.suffix_cons _ _) trivial
    · exact .halts (nested_here _ _)
  · exact .halts (nested_here _ _)

theorem keeps_one (p : Char → Bool) : Forward t (oneOf p) := by
  intro s inside
  unfold oneOf
  split
  · split
    · exact .reads (List.suffix_cons _ _) trivial
    · exact .halts (nested_here _ _)
  · exact .halts (nested_here _ _)

theorem keeps_run1 (p : Char → Bool) : Forward t (run1 p) := by
  intro s inside
  unfold run1
  split
  · exact .halts (nested_here _ _)
  · exact .reads (List.dropWhile_suffix p) trivial

theorem keeps_text (word : Text) : Forward t (text word) := by
  intro s inside
  unfold text
  split
  · rename_i found
    exact .reads ⟨word, (Text.eq_append_of_after? found).symm⟩ trivial
  · exact .halts (nested_here _ _)

theorem Keeps.listed {others : Reader (List α)}
    (keeps : Keeps t (fun values => ∀ value ∈ values, P value) others) {front : List α}
    (holds : ∀ value ∈ front, P value) :
    Keeps t (fun values => ∀ value ∈ values, P value) (do return front ++ (← others)) :=
  keeps.bind fun _ all => keeps_pure (List.forall_mem_append.mpr ⟨holds, all⟩)

theorem keeps_many (keeps : Keeps t P item) (n : Nat) :
    Keeps t (fun values => ∀ value ∈ values, P value) (manyUpTo item n) := by
  induction n with
  | zero => exact keeps_pure (by simp)
  | succ n ih =>
    intro s inside
    have stays := keeps inside
    unfold manyUpTo
    generalize item s = x at stays ⊢
    cases stays with
    | @reads value _ behind holds =>
      have lone : ∀ other ∈ [value], P other := by simpa using holds
      exact (ih.listed lone (behind.trans inside)).earlier behind
    | @halts halt nested =>
      cases halt with
      | recoverable trace => exact .reads List.suffix_rfl (by simp)
      | final trace => exact .halts nested

theorem keeps_many1 (keeps : Keeps t P item) :
    Keeps t (fun values => ∀ value ∈ values, P value) (many1 item) := by
  intro s inside
  have stays := keeps inside
  unfold many1
  generalize item s = x at stays ⊢
  cases stays with
  | @reads value _ behind holds =>
    have lone : ∀ other ∈ [value], P other := by simpa using holds
    exact ((keeps_many keeps _).listed lone (behind.trans inside)).earlier behind
  | @halts halt nested =>
    cases halt with
    | recoverable trace => exact .halts (nested.pushed _)
    | final trace => exact .halts nested

theorem keeps_separated (first : Keeps t Q separator) (second : Keeps t P item) :
    Keeps t (fun values => ∀ value ∈ values, P value) (separated separator item) := by
  have next : Keeps t P (separator *> item) := first.bind fun _ _ => second
  refine second.bind fun value holds s inside => ?_
  rw [behind_many]
  have lone : ∀ other ∈ [value], P other := by simpa using holds
  exact (keeps_many next _).listed lone inside

end
end Reader

open Reader

/-! ### Terms -/

-- A prefixed name is written in the text: its label, a colon and its local part.
def Term.WrittenIn (t : Text) : Term → Prop
  | prefixed label name => label ++ ':' :: name <:+: t
  | _ => True

section
variable {t : Text}

theorem keeps_keyword (word : Text) : Forward t (keyword word) := by
  intro s inside
  unfold keyword
  cases found : Text.afterNoCase? word s with
  | none => exact .halts (nested_here _ _)
  | some rest =>
    obtain ⟨token, rfl, _⟩ := after_no_case_begins found
    have behind : rest <:+ token ++ rest := List.suffix_append token rest
    cases rest with
    | nil => exact .reads behind trivial
    | cons c more =>
      dsimp only
      split
      · exact .halts (nested_entry behind _)
      · exact .reads behind trivial

theorem keeps_variable : Forward t variableName :=
  (keeps_one _).bind fun _ _ => keeps_run1 _

theorem keeps_iri : Forward t iriRef :=
  (keeps_char _).bind fun _ _ => (keeps_run _).bind fun _ _ => (keeps_char _).bind fun _ _ =>
    keeps_pure trivial

theorem keeps_local : Forward t localPart :=
  fun _ _ => .reads (List.drop_suffix _ _) trivial

theorem prefixed_written {s label name rest : Text}
    (read : prefixedName s = .ok ((label, name), rest)) : s = (label ++ ':' :: name) ++ rest := by
  unfold prefixedName at read
  dsimp only at read
  split at read
  · cases read
  · obtain ⟨_, u, colon, read⟩ := bind_read read
    obtain ⟨_, w, behind, done⟩ := bind_read read
    cases done
    conv_lhs => rw [← List.takeWhile_append_dropWhile (p := isNameChar) (l := s),
      char_begins colon, (local_begins behind).1]
    simp

theorem keeps_prefixed : Keeps t (fun name => name.1 ++ ':' :: name.2 <:+: t) prefixedName := by
  have forward : Forward t prefixedName := by
    intro s inside
    have label : s.dropWhile isNameChar <:+ s := List.dropWhile_suffix _
    have behind : Forward t (do
        char ':'
        let name ← localPart
        return (s.takeWhile isNameChar, name)) :=
      (keeps_char _).bind fun _ _ => keeps_local.bind fun _ _ => keeps_pure trivial
    unfold prefixedName
    dsimp only
    split
    · exact .halts (nested_here _ _)
    · exact (behind (label.trans inside)).earlier label
  intro s inside
  cases found : prefixedName s with
  | error halt => exact .halts (forward.nested inside found)
  | ok result =>
    obtain ⟨⟨label, name⟩, rest⟩ := result
    have front : label ++ ':' :: name <+: s := ⟨rest, (prefixed_written found).symm⟩
    exact .reads (forward.read inside found).1 (front.isInfix.trans inside.isInfix)

theorem keeps_suffix : Forward t stringSuffix := by
  have language : Forward t (do char '@'; let _ ← run1 isNameChar) :=
    (keeps_char _).bind fun _ _ => (keeps_run1 _).bind fun _ _ => keeps_pure trivial
  have iri : Forward t (do let _ ← iriRef) := keeps_iri.bind fun _ _ => keeps_pure trivial
  have name : Forward t (do let _ ← prefixedName) :=
    keeps_prefixed.bind fun _ _ => keeps_pure trivial
  exact language.or (keeps_last ((keeps_text _).bind fun _ _ => iri.or (keeps_last name)))

theorem keeps_quoted (quote : Char) : Forward t (quoted quote) :=
  (keeps_char _).bind fun _ _ => (keeps_run _).bind fun _ _ => (keeps_char _).bind fun _ _ =>
    keeps_pure trivial

theorem keeps_string : Forward t stringLiteral :=
  ((keeps_quoted _).or (keeps_last (keeps_quoted _))).bind fun _ _ =>
    keeps_suffix.optional.bind fun _ _ => keeps_pure trivial

theorem keeps_fraction : Forward t fraction :=
  (keeps_char _).bind fun _ _ => (keeps_run1 _).bind fun _ _ => keeps_pure trivial

theorem keeps_numeric : Forward t numericLiteral := by
  have sign : Forward t (oneOf isSign) := keeps_one _
  have whole : Forward t (do
      let _ ← run1 Char.isDigit
      let _ ← optional fraction) :=
    (keeps_run1 _).bind fun _ _ => keeps_fraction.optional.bind fun _ _ => keeps_pure trivial
  have exponent : Forward t (do
      let _ ← oneOf fun c => c == 'e' || c == 'E'
      let _ ← optional (oneOf isSign)
      run1 Char.isDigit) :=
    (keeps_one _).bind fun _ _ => sign.optional.bind fun _ _ => keeps_run1 _
  exact Keeps.matched (sign.optional.bind fun _ _ =>
    (whole.or (keeps_last keeps_fraction)).bind fun _ _ => exponent.optional.bind fun _ _ =>
      keeps_pure (P := fun _ => True) trivial)

theorem keeps_boolean : Forward t booleanLiteral :=
  (keeps_keyword _).matched.or (keeps_last (keeps_keyword _).matched)

theorem keeps_named : Keeps t (Term.WrittenIn t) namedTerm :=
  (keeps_variable.map fun _ _ => trivial).or ((keeps_iri.map fun _ _ => trivial).or
    (keeps_last (keeps_prefixed.map fun _ written => written)))

theorem keeps_verb : Keeps t (Term.WrittenIn t) verb :=
  ((keeps_keyword _).bind fun _ _ => keeps_pure trivial).or
    (keeps_last keeps_named)

theorem keeps_object : Keeps t (Term.WrittenIn t) objectTerm :=
  (keeps_string.map fun _ _ => trivial).or (keeps_named.or
    ((keeps_numeric.map fun _ _ => trivial).or
      (keeps_last (keeps_boolean.map fun _ _ => trivial))))

/-! ### Triples and groups -/

def TriplePattern.WrittenIn (t : Text) (triple : TriplePattern) : Prop :=
  ∀ term ∈ triple.terms, term.WrittenIn t

-- Also under MINUS.
def TriplesWritten (t : Text) (group : Group) : Prop :=
  ∀ triple ∈ allTriples group, triple.WrittenIn t

theorem keeps_verb_objects : Keeps t
    (fun pairs => ∀ pair ∈ pairs, Term.WrittenIn t pair.1 ∧ Term.WrittenIn t pair.2)
    verbObjects := by
  have objects := keeps_separated (keeps_char (t := t) ',').spaced (keeps_object (t := t)).spaced
  refine keeps_verb.spaced.bind fun predicate written => ?_
  refine (objects.commit.within "Expected object").bind fun values all => keeps_pure ?_
  exact List.forall_mem_map.mpr fun object member => ⟨written, all object member⟩

theorem keeps_behind (n : Nat) : Keeps t
    (fun pairs => ∀ pair ∈ pairs, Term.WrittenIn t pair.1 ∧ Term.WrittenIn t pair.2)
    (verbObjectsBehindUpTo n) := by
  induction n with
  | zero => exact keeps_pure (by simp)
  | succ n ih =>
    intro s inside
    unfold verbObjectsBehindUpTo
    split
    · exact .reads List.suffix_rfl (by simp)
    · rename_i semicolon
      have first := ((keeps_char _).spaced.read inside semicolon).1
      split
      · rename_i found
        obtain ⟨second, holds⟩ := keeps_verb_objects.read (first.trans inside) found
        exact (ih.listed holds (second.trans (first.trans inside))).earlier (second.trans first)
      · exact (ih (first.trans inside)).earlier first
      · rename_i found
        exact .halts ((keeps_verb_objects.nested (first.trans inside) found).earlier first)

theorem keeps_list : Keeps t
    (fun pairs => ∀ pair ∈ pairs, Term.WrittenIn t pair.1 ∧ Term.WrittenIn t pair.2)
    predicateObjectList := by
  exact keeps_verb_objects.bind fun first holds s inside => (keeps_behind _).listed holds inside

theorem keeps_subject : Keeps t (fun block => ∀ triple ∈ block, triple.WrittenIn t)
    sameSubject := by
  refine (keeps_named.spaced.within _).bind fun subject written => ?_
  refine (keeps_list.commit.within _).bind fun pairs all => keeps_pure ?_
  refine List.forall_mem_map.mpr fun pair member => ?_
  obtain ⟨predicate, object⟩ := all pair member
  simp [TriplePattern.WrittenIn, TriplePattern.terms, written, predicate, object]

theorem keeps_open : Forward t openBrace := (keeps_char _).spaced

theorem cons_block_triples (block : List TriplePattern) (group : Group) :
    allTriples (consBlock block group) = block ++ allTriples group := by
  unfold consBlock
  split
  · simp [allTriples, Element.allTriples]
  · simp [allTriples, Element.allTriples]

theorem TriplesWritten.cons {inner others : Group} {element : Element}
    (same : element.allTriples = allTriples inner) (first : TriplesWritten t inner)
    (behind : TriplesWritten t others) : TriplesWritten t (element :: others) := by
  rw [TriplesWritten, allTriples, same]
  exact List.forall_mem_append.mpr ⟨first, behind⟩

theorem keeps_blocks {n : Nat} (inner : Keeps t (TriplesWritten t) (elementsUpTo n)) :
    Keeps t (TriplesWritten t) (minusBlock n) ∧ Keeps t (TriplesWritten t) (nestedGroup n) ∧
      Keeps t (TriplesWritten t) (triplesBlock n) := by
  have braced := keeps_open.bind fun _ _ => inner
  refine ⟨?_, ?_, ?_⟩
  · exact (braced.commit.within _).bind fun elements first => inner.bind fun others behind =>
      keeps_pure (first.cons rfl behind)
  · exact braced.bind fun elements first => inner.bind fun others behind =>
      keeps_pure (first.cons rfl behind)
  · refine (keeps_subject.commit.within _).bind fun block first => inner.bind fun others behind =>
      keeps_pure ?_
    rw [TriplesWritten, cons_block_triples]
    exact List.forall_mem_append.mpr ⟨first, behind⟩

theorem keeps_elements (n : Nat) : Keeps t (TriplesWritten t) (elementsUpTo n) := by
  induction n with
  | zero => exact fun s inside => .halts (nested_here s _)
  | succ n ih =>
    obtain ⟨minus, nested, triples⟩ := keeps_blocks ih
    intro s inside
    have lead : s.dropWhile isSpace <:+ s := List.dropWhile_suffix isSpace
    cases here : s.dropWhile isSpace with
    | nil =>
      rw [here] at lead
      rw [elementsUpTo]
      simp only [here]
      exact .halts (nested_entry lead _)
    | cons c tail =>
      rw [here] at lead
      have whole := lead.trans inside
      have behind := (List.suffix_cons c tail).trans whole
      refine Stays.earlier ?_ lead
      rw [elements_round n here, elementRound]
      split
      · exact .reads (List.suffix_cons c tail) (by simp [TriplesWritten, allTriples])
      · split
        · exact .halts (nested_here _ _)
        · split
          · exact (ih behind).earlier (List.suffix_cons c tail)
          · split
            · rename_i word
              have later := ((keeps_keyword _).spaced.read whole word).1
              exact (minus (later.trans whole)).earlier later
            · split
              · exact nested whole
              · exact triples whole

theorem keeps_group : Keeps t (TriplesWritten t) group :=
  fun _ inside => (keeps_open.bind fun _ _ => keeps_elements _) inside

/-! ### Queries -/

theorem keeps_base_decl : Forward t baseDecl :=
  (keeps_keyword _).spaced.bind fun _ _ => keeps_iri.spaced.commit.within _

theorem keeps_prefix_decl : Forward t prefixDecl := by
  have label : Forward t (do
      let label ← run isNameChar
      char ':'
      return label) :=
    (keeps_run _).bind fun _ _ => (keeps_char _).bind fun _ _ => keeps_pure trivial
  exact (keeps_keyword _).spaced.bind fun _ _ => (label.commit.within _).bind fun _ _ =>
    (keeps_iri.spaced.commit.within _).bind fun _ _ => keeps_pure trivial

theorem keeps_declarations (n : Nat) (declared : Prologue) :
    Forward t (prologueUpTo n declared) := by
  induction n generalizing declared with
  | zero => exact keeps_pure trivial
  | succ n ih =>
    intro s inside
    unfold prologueUpTo
    split
    · rename_i found
      have later := (keeps_base_decl.read inside found).1
      exact (ih _ (later.trans inside)).earlier later
    · rename_i found
      exact .halts (keeps_base_decl.nested inside found)
    · split
      · rename_i found
        have later := (keeps_prefix_decl.read inside found).1
        exact (ih _ (later.trans inside)).earlier later
      · rename_i found
        exact .halts (keeps_prefix_decl.nested inside found)
      · exact .reads List.suffix_rfl trivial

theorem keeps_prologue : Forward t prologue := fun _ inside => keeps_declarations _ _ inside

theorem keeps_modifier : Forward t modifier :=
  ((keeps_keyword _).bind fun _ _ => keeps_pure trivial).or
    (keeps_last ((keeps_keyword _).bind fun _ _ => keeps_pure trivial))

theorem keeps_projection : Forward t projection := by
  have star : Forward t (do
      spaced (char '*')
      return Projection.all) :=
    (keeps_char _).spaced.bind fun _ _ => keeps_pure trivial
  have comma : Forward t (optional (spaced (char ','))) := (keeps_char _).spaced.optional
  have name : Forward t (do
      let name ← spaced variableName
      let _ ← optional (spaced (char ','))
      return name) :=
    keeps_variable.spaced.bind fun _ _ => comma.bind fun _ _ => keeps_pure trivial
  exact star.or (keeps_last ((keeps_many1 name).map fun _ _ => trivial))

theorem keeps_clause : Forward t selectClause :=
  (keeps_keyword _).spaced.bind fun _ _ => keeps_modifier.spaced.optional.bind fun _ _ =>
    (keeps_projection.commit.within _).bind fun _ _ => keeps_pure trivial

theorem keeps_query : Keeps t (fun q => TriplesWritten t q.pattern) selectQuery := by
  have word : Forward t (optional (spaced (keyword "WHERE"))) := (keeps_keyword _).spaced.optional
  refine keeps_prologue.bind fun _ _ => (keeps_clause.within _).bind fun _ _ => ?_
  exact word.bind fun _ _ => (keeps_group.commit.within _).bind fun _ written =>
    keeps_pure written

end

theorem undeclared_some {p : Prologue} {terms : List Term} {label : Text}
    (found : undeclared? p terms = some label) :
    (∃ name, .prefixed label name ∈ terms) ∧ p.namespace? label = none := by
  obtain ⟨term, member, here⟩ := List.exists_of_findSome?_eq_some found
  cases term with
  | prefixed other name =>
    dsimp only at here
    split at here
    · rename_i missing
      cases here
      exact ⟨⟨name, member⟩, by simpa using missing⟩
    · cases here
  | _ => cases here

-- What is reported of a text that is refused: the label of a prefixed name that stands in it, if
-- nothing is wrong but that the query does not declare it; else places in the text, from the
-- innermost one outwards and never forwards.
theorem refused_trace {t : Text} {trace : Trace} (refused : parseQuery t = .error trace) :
    (∃ q rest label name, selectQuery t = .ok (q, rest) ∧
      .prefixed label name ∈ (allTriples q.pattern).flatMap TriplePattern.terms ∧
      q.prologue.namespace? label = none ∧ label ++ ':' :: name <:+: t ∧
      trace = [⟨"Undeclared prefix", label⟩]) ∨
    (trace ≠ [] ∧ (∀ entry ∈ trace, entry.rest <:+ t) ∧
      trace.Pairwise fun inner outer => inner.rest <:+ outer.rest) := by
  unfold parseQuery at refused
  split at refused
  · rename_i halt read
    cases refused
    have nested := keeps_query.nested List.suffix_rfl read
    exact .inr ⟨nested.inhabited, nested.within, nested.outwards⟩
  · rename_i q rest read
    obtain ⟨behind, written⟩ := keeps_query.read List.suffix_rfl read
    dsimp only at refused
    split at refused
    · cases refused
      have nested := nested_entry ((List.dropWhile_suffix isBlank).trans behind)
        "Unexpected tokens after query"
      exact .inr ⟨nested.inhabited, nested.within, nested.outwards⟩
    · split at refused
      · rename_i label found
        cases refused
        obtain ⟨⟨name, member⟩, missing⟩ := undeclared_some found
        obtain ⟨triple, among, term⟩ := List.mem_flatMap.mp member
        exact .inl
          ⟨q, rest, label, name, read, member, missing, written triple among _ term, rfl⟩
      · cases refused

-- The contexts that are reported of a text, if it is refused.
def contextsReported (t : Text) : List String :=
  match parseQuery t with
  | .error trace => trace.map Entry.context
  | .ok _ => []

theorem contexts_reported {t : Text} {context : String} {contexts : List String}
    (reported : contextsReported t = context :: contexts) :
    ∃ trace, parseQuery t = .error trace ∧ trace.map Entry.context = context :: contexts := by
  unfold contextsReported at reported
  split at reported
  · rename_i trace refused
    exact ⟨trace, refused, reported⟩
  · cases reported

-- The last object is not read: its first letters spell a keyword that does not end there.
def misspeltObject : Text := "SELECT ?x\x7b?x <p> 1 MINUS\x7b?x <q> falsey\x7d\x7d"

def misspeltContexts : List String := ["unknown error", "unknown error (appended)",
  "unknown error (appended)", "Expected object", "Expected predicate and object after subject",
  "Error in triple pattern", "Error in MINUS block", "Expected '\x7b' to open the graph pattern"]

theorem misspelt_object_placed : ∃ trace, parseQuery misspeltObject = .error trace ∧
    trace.map Entry.context = misspeltContexts ∧
    (∀ entry ∈ trace, entry.rest <:+ misspeltObject) ∧
    trace.Pairwise fun inner outer => inner.rest <:+ outer.rest := by
  have reported : contextsReported misspeltObject = misspeltContexts := by decide +kernel
  obtain ⟨trace, refused, contexts⟩ := contexts_reported reported
  rcases refused_trace refused with ⟨_, _, label, _, _, _, _, _, rfl⟩ | ⟨_, within, outwards⟩
  · simp at contexts
  · exact ⟨trace, refused, contexts, within, outwards⟩

end TripleTable.Sparql
