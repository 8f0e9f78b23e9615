import TripleTable.Proofs.Plan.Words
import TripleTable.Proofs.Sparql.Inversion
import TripleTable.Proofs.Sparql.Tokens
import TripleTable.Proofs.Text.Characters
set_option autoImplicit false

/-!
The text between the first SELECT and the first WHERE of a query: where these words stand first, and
which tokens lie between them.
-/
namespace TripleTable.Plan
open Sparql Sparql.Reader

def separates (c : Char) : Bool := c == ',' || isBlank c

def isListMark (c : Char) : Bool := isSigil c || c == '*'

-- Every sigil and star stands behind a separator. The flag says whether the text itself does.
def Parted : Bool → Text → Prop
  | _, [] => True
  | apart, c :: s => (isListMark c → apart) ∧ Parted (separates c) s

instance decidableParted : (apart : Bool) → (s : Text) → Decidable (Parted apart s)
  | _, [] => isTrue trivial
  | apart, c :: s =>
    have := decidableParted (separates c) s
    inferInstanceAs (Decidable ((isListMark c → apart) ∧ Parted (separates c) s))

/-! ### The tokens of a SELECT clause -/

inductive ListToken : Text → Prop
  | distinct {token} : IsKeyword "DISTINCT" token → ListToken token
  | reduced {token} : IsKeyword "REDUCED" token → ListToken token
  | star : ListToken ['*']
  | named {name token} : IsVariableToken name token → findWord? "where" (some '?') name = none →
    ListToken token

-- Every token has a gap behind it, except a star at the very end.
inductive Spread : List Text → Text → Prop
  | done : Spread [] []
  | gap {c tokens s} : separates c → Spread tokens s → Spread tokens (c :: s)
  | token {token c tokens s} : separates c → Spread tokens (c :: s) →
    Spread (token :: tokens) (token ++ c :: s)
  | star : Spread [['*']] ['*']

section
variable {token rest s : Text} {tokens : List Text} {c : Char}

theorem gap_separates (gap : c ∈ gapChars) : separates c := by
  have all : ∀ d ∈ gapChars, separates d := each_char (by decide)
  exact all c gap

theorem variable_solid (part : isVariableChar c) : separates c = false := by
  simp only [isVariableChar, Bool.or_eq_true, beq_iff_eq] at part
  rcases part with alphanumeric | rfl
  · have comma : c ≠ ',' := by
      rintro rfl
      exact absurd alphanumeric (by decide)
    simp [separates, comma, alphanumeric_not_blank alphanumeric]
  · decide

theorem letter_variable (letter : c.isAlpha) : isVariableChar c := by
  simp [isVariableChar, isAlphanumeric, Char.isAlphanum, letter]

theorem keyword_solid {word : Text} (letters : isWord word) (same : IsKeyword word token) :
    token ≠ [] ∧ ∀ c ∈ token, separates c = false := by
  obtain ⟨c, tail, _, _, rfl, _, _, _⟩ := keyword_head letters same
  exact ⟨by simp, fun d member =>
    variable_solid (letter_variable (keyword_letters letters same d member))⟩

theorem ListToken.solid (kind : ListToken token) : token ≠ [] ∧ ∀ c ∈ token, separates c = false := by
  cases kind with
  | distinct same => exact keyword_solid (by decide) same
  | reduced same => exact keyword_solid (by decide) same
  | star => exact ⟨by simp, each_char (by decide)⟩
  | named spelled _ =>
    obtain ⟨plain, sigil, kind, rfl⟩ := spelled
    refine ⟨by simp, ?_⟩
    intro c member
    rcases List.mem_cons.mp member with rfl | inside
    · rcases kind with rfl | rfl <;> decide
    · exact variable_solid (plain.2 c inside)

theorem parted_behind {apart : Bool} (inhabited : token ≠ [])
    (solid : ∀ c ∈ token, separates c = false) (parted : Parted apart (token ++ s)) :
    Parted false s := by
  induction token generalizing apart with
  | nil => exact absurd rfl inhabited
  | cons c token ih =>
    have behind := parted.2
    rw [solid c (by simp)] at behind
    by_cases single : token = []
    · subst single
      exact behind
    · exact ih single (fun d member => solid d (by simp [member])) behind

theorem list_spread (text : ListText rest tokens s) (kinds : ∀ token ∈ tokens, ListToken token)
    (marked : ∀ token ∈ tokens.tail, ∃ c ∈ token.head?, isListMark c)
    (keyword : ∃ c ∈ rest.head?, isVariableChar c) {apart : Bool} (parted : Parted apart s) :
    Spread tokens s := by
  induction text generalizing apart with
  | done => exact .done
  | gap member _ ih => exact .gap (gap_separates member) (ih kinds marked parted.2)
  | @token token tokens s stops text ih =>
    obtain ⟨inhabited, solid⟩ := (kinds token (by simp)).solid
    have behind := parted_behind inhabited solid parted
    have later := ih (fun other member => kinds other (by simp [member]))
      (fun other member => marked other (List.mem_of_mem_tail member)) behind
    cases text with
    | done =>
      rcases stops with rfl | stops
      · exact .star
      · obtain ⟨c, head, part⟩ := keyword
        rw [stops c head] at part
        cases part
    | gap member _ => exact .token (gap_separates member) later
    | @token next others t _ _ =>
      obtain ⟨c, head, mark⟩ := marked next (by simp)
      cases next with
      | nil => cases head
      | cons d next =>
        cases head
        exact absurd (behind.1 mark) Bool.false_ne_true

theorem spread_tokens (spread : Spread tokens s) (kinds : ∀ token ∈ tokens, ListToken token) :
    Text.tokensOn separates s = tokens := by
  induction spread with
  | done => rfl
  | gap apart _ ih => rw [tokens_on_separator apart, ih kinds]
  | @token token c tokens s apart _ ih =>
    obtain ⟨inhabited, solid⟩ := (kinds token (by simp)).solid
    have later := ih fun other inside => kinds other (by simp [inside])
    rw [tokens_on_separator apart] at later
    rw [tokens_on_token inhabited solid apart, later]
  | star => exact tokens_on_all (by simp) (each_char (by decide))

theorem where_starts : ("where" : Text).head? = some 'w' := by decide

theorem separator_not_word (apart : separates c) : isWordChar c = false := by
  simp only [separates, Bool.or_eq_true, beq_iff_eq] at apart
  rcases apart with rfl | blank
  · decide
  · by_contra word
    rw [word_not_blank (by simpa using word)] at blank
    cases blank

theorem separator_not_name (apart : separates c) : isNameChar c = false := by
  by_contra name
  rw [Bool.not_eq_false, isNameChar, Bool.or_eq_true] at name
  rcases name with variable_part | hyphen
  · rw [variable_solid variable_part] at apart
    cases apart
  · rw [eq_of_beq hyphen] at apart
    exact absurd apart (by decide)

-- What is folded to a letter belongs to a word itself.
theorem fold_word (letter : (foldCase c).isAlpha) : isWordChar c := by
  have folded : isWordChar (Char.ofNat 0x17f) ∧ isWordChar (Char.ofNat 0x212a) := by
    decide +kernel
  unfold foldCase at letter
  split at letter
  · rename_i long_s
    rw [← Char.ofNat_toNat c, long_s]
    exact folded.1
  · split at letter
    · rename_i kelvin_sign
      rw [← Char.ofNat_toNat c, kelvin_sign]
      exact folded.2
    · have alpha : c.isAlpha := letter_of_lower rfl letter
      exact isWordChar_of_isAlphanum (by simp [Char.isAlphanum, alpha])

theorem separator_closes (apart : separates c) : foldCase c ∉ ("where" : Text) := by
  intro member
  have letters : ∀ d ∈ ("where" : Text), d.isAlpha := each_char (by decide)
  have word := fold_word (letters _ member)
  rw [separator_not_word apart] at word
  cases word

theorem separator_other (apart : separates c) : foldCase c ≠ 'w' := by
  intro same
  exact separator_closes apart (same ▸ by decide)

theorem separator_opens (apart : separates c) : opensWord (some c) := by
  have no_sigil : c ≠ '?' ∧ c ≠ '$' := by
    constructor
    · rintro rfl
      exact absurd apart (by decide)
    · rintro rfl
      exact absurd apart (by decide)
  simp [opensWord, separator_not_word apart, no_sigil]

theorem ListToken.passed (kind : ListToken token) (apart : separates c) (before : Option Char)
    (tail : Text) : findWord? "where" before (token ++ c :: tail) =
      (findWord? "where" (lastOr before token) (c :: tail)).map (· + token.length) := by
  cases kind with
  | distinct same =>
    exact find_skip before where_starts (keyword_fold_other (by decide) same (by decide)) _
  | reduced same =>
    exact find_skip before where_starts (keyword_fold_other (by decide) same (by decide)) _
  | star => exact find_skip before where_starts (each_char (by decide)) _
  | @named name token spelled absent =>
    obtain ⟨_, sigil, kind, rfl⟩ := spelled
    have opens : opensWord (some sigil) = opensWord (some '?') := by
      rcases kind with rfl | rfl <;> decide
    have no_start : ∀ d ∈ [sigil], foldCase d ≠ 'w' := by
      rcases kind with rfl | rfl <;> exact each_char (by decide)
    rw [← find_before opens] at absent
    have first := find_skip before where_starts no_start (name ++ c :: tail)
    have second := find_behind absent (separator_closes apart) tail
    rw [List.singleton_append] at first
    rw [List.cons_append, first]
    simp only [lastOr, List.getLast?_singleton, Option.some_or] at second ⊢
    rw [second, Option.map_map, List.getLast?_cons]
    cases name.getLast? <;> rfl

-- Nothing in the list looks like WHERE, so the first one behind the list is the keyword.
theorem spread_where (spread : Spread tokens s) (kinds : ∀ token ∈ tokens, ListToken token)
    (begins : beginsWithWord "where" rest) (inhabited : rest ≠ []) {before : Option Char}
    (opens : s = [] → opensWord before) :
    findWord? "where" before (s ++ rest) = some s.length := by
  induction spread generalizing before with
  | done =>
    cases rest with
    | nil => exact absurd rfl inhabited
    | cons c rest => exact find_here (opens rfl) begins
  | @gap c tokens s apart _ ih =>
    have no_start : ∀ d ∈ [c], foldCase d ≠ 'w' := by simpa using separator_other apart
    have skip := find_skip before where_starts no_start (s ++ rest)
    rw [List.singleton_append] at skip
    rw [List.cons_append, skip, lastOr, List.getLast?_singleton, Option.some_or,
      ih kinds fun _ => separator_opens apart]
    rfl
  | @token token c tokens s apart _ ih =>
    have others : ∀ other ∈ tokens, ListToken other := fun other inside =>
      kinds other (by simp [inside])
    have later : findWord? "where" (lastOr before token) (c :: s ++ rest) = some (c :: s).length :=
      ih others (by simp)
    rw [List.append_assoc, List.cons_append, (kinds token (by simp)).passed apart,
      ← List.cons_append, later, List.length_append, Option.map_some, Nat.add_comm]
  | star =>
    have no_start : ∀ d ∈ ['*'], foldCase d ≠ 'w' := each_char (by decide)
    have star_opens : opensWord (some '*') := by decide
    rw [find_skip before where_starts no_start, lastOr, List.getLast?_singleton, Option.some_or]
    cases rest with
    | nil => exact absurd rfl inhabited
    | cons c rest =>
      rw [find_here star_opens begins]
      rfl

end
/-! ### The text between SELECT and WHERE -/

def consumed (s rest : Text) : Text := s.take (s.length - rest.length)

theorem consumed_front (front rest : Text) : consumed (front ++ rest) rest = front := by
  rw [consumed, List.length_append, Nat.add_sub_cancel, List.take_left]

section
variable {word front gap s rest : Text} {tokens : List Text} {before : Option Char}

theorem last_or_opens (opens : opensWord before) (blanks : ∀ c ∈ gap, isSpace c) :
    opensWord (lastOr before gap) := by
  unfold lastOr
  cases last : gap.getLast? with
  | none => exact opens
  | some c =>
    have gap := space_gap (blanks c (List.mem_of_getLast? last))
    exact separator_opens (gap_separates gap)

-- What a prologue may end in, and what blanks are: none of it belongs to SELECT or WHERE.
def leadChars : List Char := [' ', '\t', '\r', '\n', '>']

theorem space_lead {c : Char} (space : isSpace c) : c ∈ leadChars :=
  List.mem_append_left ['>'] (space_listed space)

theorem lead_passed {w : Char} (starts : word.head? = some w)
    (closed : ∀ c ∈ leadChars, foldCase c ∉ word) (absent : findWord? word none front = none)
    (ends : front = [] ∨ EndsDeclaration front) (blanks : ∀ c ∈ gap, isSpace c) :
    ∃ before, opensWord before ∧ ∀ s, findWord? word none (front ++ (gap ++ s)) =
      (findWord? word before s).map (· + (front ++ gap).length) := by
  have inhabited : word ≠ [] := by
    rintro rfl
    cases starts
  have others : ∀ c ∈ gap, foldCase c ≠ w := by
    rintro c member rfl
    exact closed c (space_lead (blanks c member)) (List.mem_of_mem_head? starts)
  rcases ends with rfl | ⟨more, c, rfl, kind⟩
  · exact ⟨lastOr none gap, last_or_opens rfl blanks, fun s => find_skip none starts others s⟩
  · have lead : c ∈ leadChars := by
      rcases kind with rfl | space
      · decide
      · exact space_lead space
    have opens : opensWord (some c) := by
      have all : ∀ d ∈ leadChars, opensWord (some d) := each_char (by decide)
      exact all c lead
    refine ⟨lastOr (some c) gap, last_or_opens opens blanks, fun s => ?_⟩
    rw [List.append_assoc, List.singleton_append, find_past absent (closed c lead) inhabited,
      find_skip (some c) starts others, Option.map_map]
    congr 1
    funext n
    simp only [Function.comp_apply, List.length_append, List.length_singleton]
    omega

theorem spread_head (spread : Spread tokens s) (kinds : ∀ token ∈ tokens, ListToken token)
    {c : Char} (head : c ∈ s.head?) (stops : isNameChar c = false) : isWordChar c = false := by
  have plain : ∀ d ∈ ['?', '$', '*'], isWordChar d = false := each_char (by decide)
  cases spread with
  | done => cases head
  | gap apart _ =>
    cases head
    exact separator_not_word apart
  | @token token d _ _ _ _ =>
    have kind := kinds token (by simp)
    have letter_head : ∀ word : Text, isWord word → IsKeyword word token → isNameChar c := by
      intro word letters same
      obtain ⟨e, tail, _, _, rfl, _, _, letter⟩ := keyword_head letters same
      cases head
      exact letter_name letter
    cases kind with
    | distinct same =>
      rw [letter_head "DISTINCT" (by decide) same] at stops
      cases stops
    | reduced same =>
      rw [letter_head "REDUCED" (by decide) same] at stops
      cases stops
    | star =>
      cases head
      exact plain _ (by simp)
    | named spelled _ =>
      obtain ⟨_, sigil, kind, rfl⟩ := spelled
      cases head
      rcases kind with rfl | rfl <;> exact plain _ (by simp)
  | star =>
    cases head
    exact plain _ (by simp)

theorem between_read {select list : Text} (same : IsKeyword "SELECT" select)
    (no_select : findWord? "select" none front = none)
    (no_where : findWord? "where" none front = none) (ends : front = [] ∨ EndsDeclaration front)
    (blanks : ∀ c ∈ gap, isSpace c) (spread : Spread tokens list)
    (kinds : ∀ token ∈ tokens, ListToken token) (inhabited : list ≠ [])
    (stops : ∀ c ∈ (list ++ rest).head?, isNameChar c = false)
    (begins : beginsWithWord "where" rest) (written : rest ≠ []) :
    betweenSelectAndWhere? (front ++ (gap ++ (select ++ (list ++ rest)))) = some list := by
  have folds : select.map foldCase = ("select" : Text) := keyword_folds (by decide) same
  have six : select.length = 6 := by
    rw [← List.length_map (f := foldCase), folds]
    rfl
  have select_at : findWord? "select" none (front ++ (gap ++ (select ++ (list ++ rest)))) =
      some (front ++ gap).length := by
    obtain ⟨before, opens, passed⟩ :=
      lead_passed (w := 's') (by decide) (each_char (by decide)) no_select ends blanks
    have ends_word : ∀ c ∈ (list ++ rest).head?, isWordChar c = false := by
      intro c head
      rw [List.head?_append_of_ne_nil _ inhabited] at head stops
      exact spread_head spread kinds head (stops c head)
    have word := begins_word select ends_word
    rw [folds] at word
    obtain ⟨c, tail, _, _, rfl, _, _, _⟩ := keyword_head (by decide) same
    rw [List.cons_append] at word ⊢
    rw [passed, find_here opens word, Option.map_some, Nat.zero_add]
  have where_at : findWord? "where" none (front ++ (gap ++ (select ++ (list ++ rest)))) =
      some (list.length + 6 + (front ++ gap).length) := by
    obtain ⟨before, _, passed⟩ := lead_passed where_starts (each_char (by decide)) no_where ends blanks
    have others := keyword_fold_other (by decide) same (w := 'w') (by decide)
    have found : findWord? "where" (lastOr before select) (list ++ rest) = some list.length :=
      spread_where spread kinds begins written fun empty => absurd empty inhabited
    rw [passed, find_skip before where_starts others, found, six]
    rfl
  rw [betweenSelectAndWhere?, select_at, where_at]
  dsimp only
  rw [if_neg (by omega), Option.some_inj]
  have cut : front ++ (gap ++ (select ++ (list ++ rest))) =
      (front ++ gap ++ select ++ list) ++ rest := by simp
  have lengths : list.length + 6 + (front ++ gap).length =
      (front ++ gap ++ select ++ list).length := by
    simp only [List.length_append, six]
    omega
  have lead : (front ++ gap).length + 6 = (front ++ gap ++ select).length := by
    simp only [List.length_append, six]
  rw [cut, lengths, List.take_left, lead, List.drop_left]

end

end TripleTable.Plan
