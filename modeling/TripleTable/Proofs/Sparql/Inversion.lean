import Mathlib.Data.List.Forall2
import Mathlib.Data.List.TakeWhile
import TripleTable.Proofs.Sparql.Reading
import TripleTable.Proofs.Sparql.Writing
set_option autoImplicit false

/-!
What a reader that succeeded has read: how its text begins, and which of its readers got there.
-/
namespace TripleTable.Sparql

namespace Reader

section
variable {α β : Type} {s rest : Text}

theorem bind_read {p : Reader α} {f : α → Reader β} {result : β}
    (read : (p >>= f) s = .ok (result, rest)) :
    ∃ value t, p s = .ok (value, t) ∧ f value t = .ok (result, rest) := by
  cases found : p s with
  | error halt =>
    simp only [bind, StateT.bind, found, Except.bind] at read
    cases read
  | ok pair =>
    simp only [bind, StateT.bind, found, Except.bind] at read
    exact ⟨pair.1, pair.2, rfl, read⟩

theorem pure_read {value result : α} (read : (pure value : Reader α) s = .ok (result, rest)) :
    value = result ∧ s = rest := by
  cases read
  exact ⟨rfl, rfl⟩

theorem map_read {p : Reader α} {f : α → β} {result : β}
    (read : (f <$> p) s = .ok (result, rest)) : ∃ value, p s = .ok (value, rest) ∧ f value = result := by
  cases found : p s with
  | error halt =>
    simp only [Functor.map, StateT.map, bind, found, Except.bind] at read
    cases read
  | ok pair =>
    simp only [Functor.map, StateT.map, bind, found, Except.bind] at read
    cases read
    exact ⟨pair.1, rfl, rfl⟩

theorem within_read {r : Reader α} {context : String} {value : α}
    (read : within context r s = .ok (value, rest)) : r s = .ok (value, rest) := by
  unfold within at read
  cases found : r s with
  | error halt =>
    rw [found] at read
    cases read
  | ok result =>
    rw [found] at read
    exact read

theorem commit_read {r : Reader α} {value : α} (read : commit r s = .ok (value, rest)) :
    r s = .ok (value, rest) := by
  unfold commit at read
  cases found : r s with
  | error halt =>
    rw [found] at read
    cases read
  | ok result =>
    rw [found] at read
    exact read

theorem optional_read {r : Reader α} {found : Option α}
    (read : optional r s = .ok (found, rest)) :
    (∃ value, found = some value ∧ r s = .ok (value, rest)) ∨ (found = none ∧ rest = s) := by
  unfold optional at read
  split at read
  · rename_i value t here
    cases read
    exact .inl ⟨value, rfl, here⟩
  · cases read
    exact .inr ⟨rfl, rfl⟩
  · cases read

theorem first_of_read {readers : List (Reader α)} {value : α}
    (read : firstOf readers s = .ok (value, rest)) : ∃ r ∈ readers, r s = .ok (value, rest) := by
  induction readers with
  | nil => cases read
  | cons r others ih =>
    cases others with
    | nil =>
      simp only [firstOf] at read
      split at read
      · cases read
      · exact ⟨r, by simp, read⟩
    | cons next others =>
      simp only [firstOf] at read
      split at read
      · obtain ⟨later, member, here⟩ := ih read
        exact ⟨later, List.mem_cons_of_mem r member, here⟩
      · exact ⟨r, by simp, read⟩

theorem spaced_begins {r : Reader α} {value : α} (read : spaced r s = .ok (value, rest)) :
    ∃ t, r (s.dropWhile isSpace) = .ok (value, t) ∧ rest = t.dropWhile isSpace := by
  obtain ⟨_, u, lead, read⟩ := bind_read read
  obtain ⟨_, t, here, read⟩ := bind_read read
  obtain ⟨_, w, behind, read⟩ := bind_read read
  obtain ⟨rfl, rfl⟩ := pure_read read
  cases lead
  cases behind
  exact ⟨t, here, rfl⟩

theorem char_begins {c : Char} {value : Unit} (read : char c s = .ok (value, rest)) :
    s = c :: rest := by
  unfold char at read
  split at read
  · split at read
    · rename_i same
      cases read
      rw [same]
    · cases read
  · cases read

end
end Reader

open Reader

section
variable {s rest : Text}

theorem after_no_case_begins {word : Text} (found : Text.afterNoCase? word s = some rest) :
    ∃ token, s = token ++ rest ∧ IsKeyword word token := by
  induction word generalizing s with
  | nil =>
    cases found
    exact ⟨[], rfl, rfl⟩
  | cons w word ih =>
    cases s with
    | nil => cases found
    | cons c s =>
      rw [Text.afterNoCase?] at found
      split at found
      · rename_i same
        obtain ⟨token, rfl, keyword⟩ := ih found
        refine ⟨c :: token, rfl, ?_⟩
        simp only [IsKeyword, Text.asciiLower, List.map_cons, same] at keyword ⊢
        rw [keyword]
      · cases found

theorem keyword_begins {word : Text} {value : Unit} (read : keyword word s = .ok (value, rest)) :
    ∃ token, s = token ++ rest ∧ IsKeyword word token ∧ ∀ c ∈ rest.head?, isNameChar c = false := by
  unfold keyword at read
  cases found : Text.afterNoCase? word s with
  | none =>
    rw [found] at read
    cases read
  | some more =>
    obtain ⟨token, rfl, same⟩ := after_no_case_begins found
    rw [found] at read
    cases more with
    | nil =>
      cases read
      exact ⟨token, rfl, same, by simp⟩
    | cons c more =>
      dsimp only at read
      split at read
      · cases read
      · rename_i plain
        cases read
        refine ⟨token, rfl, same, ?_⟩
        intro d head
        cases head
        simp only [Bool.or_eq_true, not_or, Bool.not_eq_true] at plain
        exact plain.1

theorem head_dropped {p : Char → Bool} : ∀ c ∈ (s.dropWhile p).head?, p c = false := by
  intro c head
  have stops := List.head?_dropWhile_not p s
  rw [Option.mem_def.mp head] at stops
  simpa using stops

theorem variable_begins {name : Text} (read : variableName s = .ok (name, rest)) :
    ∃ token, IsVariableToken name token ∧ s = token ++ rest ∧
      ∀ c ∈ rest.head?, isVariableChar c = false := by
  obtain ⟨sigil, t, sign, read⟩ := bind_read read
  have opened : s = sigil :: t ∧ (sigil = '?' ∨ sigil = '$') := by
    unfold oneOf at sign
    split at sign
    · split at sign
      · rename_i kind
        cases sign
        exact ⟨rfl, by simpa using kind⟩
      · cases sign
    · cases sign
  unfold run1 at read
  split at read
  · cases read
  · rename_i inhabited
    cases read
    refine ⟨sigil :: t.takeWhile isVariableChar, ⟨⟨by simpa using inhabited, ?_⟩, sigil,
      opened.2, rfl⟩, ?_, head_dropped⟩
    · exact fun c member => List.mem_takeWhile_imp member
    · rw [opened.1, List.cons_append, List.takeWhile_append_dropWhile]

theorem iri_begins {iri : Text} (read : iriRef s = .ok (iri, rest)) :
    ∃ token, IsIriToken iri token ∧ s = token ++ rest := by
  obtain ⟨_, t, opened, read⟩ := bind_read read
  obtain ⟨_, u, body, read⟩ := bind_read read
  obtain ⟨_, v, closed, read⟩ := bind_read read
  obtain ⟨rfl, rfl⟩ := pure_read read
  cases body
  refine ⟨_, ⟨fun c member => List.mem_takeWhile_imp member, rfl⟩, ?_⟩
  rw [char_begins opened, List.cons_append, List.append_assoc, List.singleton_append,
    ← char_begins closed, List.takeWhile_append_dropWhile]

end

/-! ### The prologue -/

inductive Declaration where
  | base (iri : Text)
  | label (label iri : Text)

def Prologue.declare (p : Prologue) : Declaration → Prologue
  | .base iri => { p with base := some iri }
  | .label label iri => { p with prefixes := p.prefixes ++ [⟨label, iri⟩] }

-- A keyword, in front of a label what it declares, and an IRI between angle brackets.
inductive Declaration.Spelled : Declaration → Text → Prop
  | base {lead word gap iri token behind} : Blanks lead → IsKeyword "BASE" word → Blanks gap →
    IsIriToken iri token → Blanks behind →
    Spelled (.base iri) (lead ++ word ++ gap ++ (token ++ behind))
  | label {lead word gap label middle iri token behind} : Blanks lead →
    IsKeyword "PREFIX" word → Blanks gap → IsLabel label → Blanks middle →
    IsIriToken iri token → Blanks behind →
    Spelled (.label label iri) (lead ++ word ++ gap ++ label ++ ':' :: middle ++ (token ++ behind))

-- Declarations one behind the other, as they stand at the beginning of a text.
inductive DeclarationsSpelled : List Declaration → Text → Prop
  | nil : DeclarationsSpelled [] []
  | cons {first front others text} : first.Spelled front → DeclarationsSpelled others text →
    DeclarationsSpelled (first :: others) (front ++ text)

section
variable {s rest : Text}

theorem spaces_blanks (s : Text) : Blanks (s.takeWhile isSpace) :=
  fun _ member => List.mem_takeWhile_imp member

theorem padded_split {token t : Text} (here : s.dropWhile isSpace = token ++ t) :
    s = s.takeWhile isSpace ++ (token ++ t.takeWhile isSpace) ++ t.dropWhile isSpace := by
  rw [List.append_assoc, List.append_assoc, List.takeWhile_append_dropWhile, ← here,
    List.takeWhile_append_dropWhile]

theorem iri_text {iri : Text} (read : spaced iriRef s = .ok (iri, rest)) :
    ∃ lead token behind, s = lead ++ (token ++ behind) ++ rest ∧ Blanks lead ∧
      IsIriToken iri token ∧ Blanks behind := by
  obtain ⟨t, here, rfl⟩ := spaced_begins read
  obtain ⟨token, spelled, body⟩ := iri_begins here
  exact ⟨_, token, _, padded_split body, spaces_blanks s, spelled, spaces_blanks t⟩

theorem keyword_text {word : Text} {value : Unit}
    (read : spaced (keyword word) s = .ok (value, rest)) :
    ∃ lead token gap, s = lead ++ (token ++ gap) ++ rest ∧ Blanks lead ∧
      IsKeyword word token ∧ Blanks gap := by
  obtain ⟨t, here, rfl⟩ := spaced_begins read
  obtain ⟨token, body, same, _⟩ := keyword_begins here
  exact ⟨_, token, _, padded_split body, spaces_blanks s, same, spaces_blanks t⟩

theorem base_text {iri : Text} (read : baseDecl s = .ok (iri, rest)) :
    ∃ front, s = front ++ rest ∧ (Declaration.base iri).Spelled front := by
  obtain ⟨_, t, word, behind⟩ := bind_read read
  obtain ⟨lead, token, gap, rfl, lead_blank, same, gap_blank⟩ := keyword_text word
  obtain ⟨more, iri_token, last, rfl, more_blank, spelled, last_blank⟩ :=
    iri_text (commit_read (within_read behind))
  have blank : Blanks (gap ++ more) := List.forall_mem_append.mpr ⟨gap_blank, more_blank⟩
  exact ⟨_, by simp, .base lead_blank same blank spelled last_blank⟩

theorem prefix_text {decl : PrefixDecl} (read : prefixDecl s = .ok (decl, rest)) :
    ∃ front, s = front ++ rest ∧ (Declaration.label decl.label decl.iri).Spelled front := by
  obtain ⟨_, t, word, behind⟩ := bind_read read
  obtain ⟨lead, token, gap, rfl, lead_blank, same, gap_blank⟩ := keyword_text word
  obtain ⟨_, u, label_read, behind⟩ := bind_read behind
  obtain ⟨_, v, label, colon_read⟩ := bind_read (commit_read (within_read label_read))
  obtain ⟨_, w, colon, done⟩ := bind_read colon_read
  obtain ⟨rfl, rfl⟩ := pure_read done
  obtain ⟨_, x, iri, done⟩ := bind_read behind
  obtain ⟨rfl, rfl⟩ := pure_read done
  obtain ⟨middle, iri_token, last, rfl, middle_blank, spelled, last_blank⟩ :=
    iri_text (commit_read (within_read iri))
  cases label
  have plain : IsLabel (t.takeWhile isNameChar) := fun _ member => List.mem_takeWhile_imp member
  refine ⟨_, ?_, .label lead_blank same gap_blank plain middle_blank spelled last_blank⟩
  conv_lhs => rw [← List.takeWhile_append_dropWhile (p := isNameChar) (l := t), char_begins colon]
  simp

theorem declarations_text {n : Nat} {declared whole : Prologue}
    (read : prologueUpTo n declared s = .ok (whole, rest)) :
    ∃ declarations front, s = front ++ rest ∧ DeclarationsSpelled declarations front ∧
      whole = declarations.foldl Prologue.declare declared := by
  induction n generalizing declared s with
  | zero =>
    cases read
    exact ⟨[], [], rfl, .nil, rfl⟩
  | succ n ih =>
    unfold prologueUpTo at read
    split at read
    · rename_i base
      obtain ⟨first, rfl, spelled⟩ := base_text base
      obtain ⟨declarations, front, rfl, others, rfl⟩ := ih read
      exact ⟨_ :: declarations, first ++ front, by simp, .cons spelled others, rfl⟩
    · cases read
    · split at read
      · rename_i decl
        obtain ⟨first, rfl, spelled⟩ := prefix_text decl
        obtain ⟨declarations, front, rfl, others, rfl⟩ := ih read
        exact ⟨_ :: declarations, first ++ front, by simp, .cons spelled others, rfl⟩
      · cases read
      · cases read
        exact ⟨[], [], rfl, .nil, rfl⟩

-- The text of a prologue that is not empty ends in an IRI and the blanks behind it.
def EndsDeclaration (front : Text) : Prop :=
  ∃ more c, front = more ++ [c] ∧ (c = '>' ∨ isSpace c)

theorem ends_declaration {front gap : Text} (blanks : Blanks gap) :
    EndsDeclaration (front ++ '>' :: gap) := by
  rcases List.eq_nil_or_concat gap with rfl | ⟨more, c, rfl⟩
  · exact ⟨front, '>', rfl, .inl rfl⟩
  · exact ⟨front ++ '>' :: more, c, by simp, .inr (blanks c (by simp))⟩

theorem ends_behind {front : Text} (ends : EndsDeclaration front) (lead : Text) :
    EndsDeclaration (lead ++ front) := by
  obtain ⟨more, c, rfl, kind⟩ := ends
  exact ⟨lead ++ more, c, by simp, kind⟩

theorem iri_ends {iri token behind : Text} (spelled : IsIriToken iri token)
    (blanks : Blanks behind) (lead : Text) : EndsDeclaration (lead ++ (token ++ behind)) := by
  obtain ⟨_, rfl⟩ := spelled
  have ends := @ends_declaration (lead ++ '<' :: iri) behind blanks
  simpa using ends

theorem Declaration.Spelled.ends {declaration : Declaration} {front : Text}
    (spelled : declaration.Spelled front) : EndsDeclaration front := by
  cases spelled with
  | base _ _ _ iri behind => exact iri_ends iri behind _
  | label _ _ _ _ _ iri behind => exact iri_ends iri behind _

theorem DeclarationsSpelled.ends {declarations : List Declaration} {front : Text}
    (spelled : DeclarationsSpelled declarations front) :
    front = [] ∨ EndsDeclaration front := by
  induction spelled with
  | nil => exact .inl rfl
  | cons first _ ih =>
    rcases ih with rfl | ends
    · rw [List.append_nil]
      exact .inr first.ends
    · exact .inr (ends_behind ends _)

theorem prologue_text {declared : Prologue} (read : prologue s = .ok (declared, rest)) :
    ∃ front, s = front ++ rest ∧ (front = [] ∨ EndsDeclaration front) := by
  obtain ⟨_, front, split, spelled, _⟩ := declarations_text read
  exact ⟨front, split, spelled.ends⟩

end

/-! ### The SELECT clause -/

def gapChars : List Char := [' ', '\t', '\r', '\n', ',']

-- A text in front of `rest` as tokens with blanks and commas between them. A token goes as far as
-- it can.
inductive ListText (rest : Text) : List Text → Text → Prop
  | done : ListText rest [] []
  | gap {c tokens s} : c ∈ gapChars → ListText rest tokens s → ListText rest tokens (c :: s)
  | token {token tokens s} : token = ['*'] ∨ (∀ c ∈ (s ++ rest).head?, isVariableChar c = false) →
    ListText rest tokens s → ListText rest (token :: tokens) (token ++ s)

def ListTokens : Projection → List Text → Prop
  | .all, tokens => tokens = [['*']]
  | .named names, tokens => names ≠ [] ∧ List.Forall₂ IsVariableToken names tokens

section
variable {s rest gap : Text} {tokens : List Text}

theorem space_gap {c : Char} (space : isSpace c) : c ∈ gapChars :=
  List.mem_append_left [','] (space_listed space)

theorem ListText.behind_gap (list : ListText rest tokens s) (gaps : ∀ c ∈ gap, c ∈ gapChars) :
    ListText rest tokens (gap ++ s) := by
  induction gap with
  | nil => exact list
  | cons c gap ih =>
    exact .gap (gaps c (by simp)) (ih fun d member => gaps d (by simp [member]))

theorem ListText.append {more : List Text} {t : Text} (first : ListText (t ++ rest) tokens s)
    (second : ListText rest more t) : ListText rest (tokens ++ more) (s ++ t) := by
  induction first with
  | done => exact second
  | gap member _ ih => exact .gap member ih
  | token stops _ ih =>
    rw [List.append_assoc]
    exact .token (by rwa [List.append_assoc]) ih

theorem spaces_gap (s : Text) : ∀ c ∈ s.takeWhile isSpace, c ∈ gapChars :=
  fun _ member => space_gap (List.mem_takeWhile_imp member)

theorem spaces_list (s : Text) : ListText rest [] (s.takeWhile isSpace) := by
  simpa using ListText.done.behind_gap (spaces_gap s)

theorem spaced_list {token t : Text} (here : s.dropWhile isSpace = token ++ t)
    (stops : token = ['*'] ∨ ∀ c ∈ t.head?, isVariableChar c = false) :
    ∃ list, s = list ++ t.dropWhile isSpace ∧ ListText (t.dropWhile isSpace) [token] list := by
  refine ⟨_, padded_split here, ListText.behind_gap (.token ?_ (spaces_list t)) (spaces_gap s)⟩
  rwa [List.takeWhile_append_dropWhile]

theorem comma_list {found : Option Unit} (read : optional (spaced (char ',')) s = .ok (found, rest)) :
    ∃ list, s = list ++ rest ∧ ListText rest [] list := by
  rcases optional_read read with ⟨_, rfl, comma⟩ | ⟨rfl, rfl⟩
  · obtain ⟨t, here, rfl⟩ := spaced_begins comma
    have body : s.dropWhile isSpace = [','] ++ t := char_begins here
    exact ⟨_, padded_split body,
      ListText.behind_gap (.gap (by decide) (spaces_list t)) (spaces_gap s)⟩
  · exact ⟨[], rfl, .done⟩

theorem listed_name_list {name : Text}
    (read : (do let name ← spaced variableName
                let _ ← optional (spaced (char ','))
                return name : Reader Text) s = .ok (name, rest)) :
    ∃ token list, IsVariableToken name token ∧ s = list ++ rest ∧ ListText rest [token] list := by
  obtain ⟨_, t, name_read, behind⟩ := bind_read read
  obtain ⟨_, u, comma, done⟩ := bind_read behind
  obtain ⟨rfl, rfl⟩ := pure_read done
  obtain ⟨v, here, rfl⟩ := spaced_begins name_read
  obtain ⟨token, spelled, body, stops⟩ := variable_begins here
  obtain ⟨front, split, first⟩ := spaced_list body (.inr stops)
  obtain ⟨more, split_more, second⟩ := comma_list comma
  refine ⟨token, front ++ more, spelled, ?_, ?_⟩
  · rw [split, split_more, List.append_assoc]
  · rw [split_more] at first
    exact first.append second

theorem names_list {item : Reader Text}
    (each : ∀ s name rest, item s = .ok (name, rest) → ∃ token list, IsVariableToken name token ∧
      s = list ++ rest ∧ ListText rest [token] list)
    {n : Nat} {names : List Text} (read : manyUpTo item n s = .ok (names, rest)) :
    ∃ tokens list, List.Forall₂ IsVariableToken names tokens ∧ s = list ++ rest ∧
      ListText rest tokens list := by
  induction n generalizing s names with
  | zero =>
    cases read
    exact ⟨[], [], .nil, rfl, .done⟩
  | succ n ih =>
    unfold manyUpTo at read
    split at read
    · cases read
      exact ⟨[], [], .nil, rfl, .done⟩
    · cases read
    · rename_i name t first_read
      obtain ⟨others, u, others_read, done⟩ := bind_read read
      obtain ⟨rfl, rfl⟩ := pure_read done
      obtain ⟨token, front, spelled, rfl, first⟩ := each _ _ _ first_read
      obtain ⟨tokens, list, more, rfl, second⟩ := ih others_read
      exact ⟨token :: tokens, front ++ list, .cons spelled more, by simp, first.append second⟩

theorem projection_list {listed : Projection} (read : projection s = .ok (listed, rest)) :
    ∃ tokens list, ListTokens listed tokens ∧ s = list ++ rest ∧ ListText rest tokens list := by
  obtain ⟨r, member, here⟩ := first_of_read read
  simp only [List.mem_cons, List.not_mem_nil, or_false] at member
  rcases member with rfl | rfl
  · obtain ⟨_, t, star, done⟩ := bind_read here
    obtain ⟨rfl, rfl⟩ := pure_read done
    obtain ⟨u, body, rfl⟩ := spaced_begins star
    have here : s.dropWhile isSpace = ['*'] ++ u := char_begins body
    obtain ⟨list, split, text⟩ := spaced_list here (.inl rfl)
    exact ⟨[['*']], list, rfl, split, text⟩
  · obtain ⟨names, many, rfl⟩ := map_read here
    unfold many1 at many
    split at many
    · cases many
    · cases many
    · rename_i name t first_read
      obtain ⟨others, u, others_read, done⟩ := bind_read many
      obtain ⟨rfl, rfl⟩ := pure_read done
      obtain ⟨token, front, spelled, rfl, first⟩ := listed_name_list first_read
      obtain ⟨tokens, list, more, rfl, second⟩ :=
        names_list (fun _ _ _ item => listed_name_list item) others_read
      exact ⟨token :: tokens, front ++ list, ⟨by simp, .cons spelled more⟩, by simp,
        first.append second⟩

theorem not_name_stops (stops : ∀ c ∈ s.head?, isNameChar c = false) :
    ∀ c ∈ s.head?, isVariableChar c = false := by
  intro c head
  have not_name := stops c head
  simp only [isNameChar, Bool.or_eq_false_iff] at not_name
  rw [isVariableChar, not_name.1.1, not_name.1.2]
  rfl

theorem modifier_begins {word : Modifier} (read : modifier s = .ok (word, rest)) :
    ∃ token, ModifierSpelled (some word) [token] ∧ s = token ++ rest ∧
      ∀ c ∈ rest.head?, isNameChar c = false := by
  obtain ⟨r, member, chosen⟩ := first_of_read read
  simp only [List.mem_cons, List.not_mem_nil, or_false] at member
  rcases member with rfl | rfl
  · obtain ⟨_, t, found, done⟩ := bind_read chosen
    obtain ⟨rfl, rfl⟩ := pure_read done
    obtain ⟨token, body, same, stops⟩ := keyword_begins found
    exact ⟨token, .distinct same, body, stops⟩
  · obtain ⟨_, t, found, done⟩ := bind_read chosen
    obtain ⟨rfl, rfl⟩ := pure_read done
    obtain ⟨token, body, same, stops⟩ := keyword_begins found
    exact ⟨token, .reduced same, body, stops⟩

theorem modifier_list {option : Option Modifier}
    (read : optional (spaced modifier) s = .ok (option, rest)) :
    ∃ tokens list, ModifierSpelled option tokens ∧ s = list ++ rest ∧
      ListText rest tokens list := by
  rcases optional_read read with ⟨word, rfl, found⟩ | ⟨rfl, rfl⟩
  · obtain ⟨t, here, rfl⟩ := spaced_begins found
    obtain ⟨token, spelled, body, stops⟩ := modifier_begins here
    obtain ⟨list, split, text⟩ := spaced_list body (.inr (not_name_stops stops))
    exact ⟨[token], list, spelled, split, text⟩
  · exact ⟨[], [], .none, rfl, .done⟩

-- A SELECT clause: the keyword, and behind it the tokens of the modifier and the projection.
theorem clause_list {option : Option Modifier} {listed : Projection}
    (read : selectClause s = .ok ((option, listed), rest)) :
    ∃ word list front tokens, s.dropWhile isSpace = word ++ (list ++ rest) ∧
      IsKeyword "SELECT" word ∧ (∀ c ∈ (list ++ rest).head?, isNameChar c = false) ∧
      ModifierSpelled option front ∧ ListTokens listed tokens ∧
      ListText rest (front ++ tokens) list := by
  obtain ⟨_, t, keyword, behind⟩ := bind_read read
  obtain ⟨u, here, rfl⟩ := spaced_begins keyword
  obtain ⟨word, body, same, stops⟩ := keyword_begins here
  obtain ⟨_, v, option_read, behind⟩ := bind_read behind
  obtain ⟨_, w, listed_read, done⟩ := bind_read behind
  cases done
  obtain ⟨front, first, spelled, split_first, first_text⟩ := modifier_list option_read
  obtain ⟨tokens, second, named, rfl, second_text⟩ :=
    projection_list (commit_read (within_read listed_read))
  have split : u = u.takeWhile isSpace ++ (first ++ second) ++ rest := by
    rw [List.append_assoc, List.append_assoc, ← split_first, List.takeWhile_append_dropWhile]
  refine ⟨word, u.takeWhile isSpace ++ (first ++ second), front, tokens, ?_, same, ?_, spelled,
    named, (first_text.append second_text).behind_gap (spaces_gap u)⟩
  · rw [← split, body]
  · rwa [← split]

end
end TripleTable.Sparql
