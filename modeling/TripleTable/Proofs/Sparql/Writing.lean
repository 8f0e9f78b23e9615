import TripleTable.Proofs.Text.Names
import TripleTable.Sparql.Parse
set_option autoImplicit false

/-!
How queries are written: which tokens spell a query, and how tokens are laid out as text. A query
is spelled in many ways. Its triples share their subject or their verb or repeat it, periods may
stand between the elements of a group, and every keyword has its letters in either case.
-/
namespace TripleTable.Sparql

def IsVariableName (name : Text) : Prop := name ≠ [] ∧ ∀ c ∈ name, isVariableChar c

def IsIri (iri : Text) : Prop := ∀ c ∈ iri, isIriChar c

def IsLabel (label : Text) : Prop := ∀ c ∈ label, isNameChar c

def IsLocal (name : Text) : Prop := (∀ c ∈ name, isLocalChar c) ∧ name.getLast? ≠ some '.'

-- A literal stands between two quotes of one kind and does not hold that quote.
def IsQuoteOf (quote : Char) (lexical : Text) : Prop :=
  (quote = '"' ∨ quote = '\'') ∧ quote ∉ lexical

instance (name : Text) : Decidable (IsVariableName name) :=
  decidable_of_iff (name ≠ [] ∧ name.all isVariableChar) (by simp [IsVariableName])

instance (iri : Text) : Decidable (IsIri iri) :=
  decidable_of_iff (iri.all isIriChar) (by simp [IsIri])

instance (label : Text) : Decidable (IsLabel label) :=
  decidable_of_iff (label.all isNameChar) (by simp [IsLabel])

instance (name : Text) : Decidable (IsLocal name) :=
  decidable_of_iff (name.all isLocalChar ∧ name.getLast? ≠ some '.') (by simp [IsLocal])

instance (quote : Char) (lexical : Text) : Decidable (IsQuoteOf quote lexical) :=
  inferInstanceAs (Decidable (_ ∧ _))

namespace Term

def IsName : Term → Prop
  | «variable» name => IsVariableName name
  | iri text => IsIri text
  | «prefixed» label name => (IsLabel label ∧ label.head? ≠ some '-') ∧ IsLocal name
  | rdfType => False
  | literal _ => False

def IsVerb (term : Term) : Prop := term = rdfType ∨ term.IsName

def IsObject (term : Term) : Prop :=
  (∃ quote lexical, IsQuoteOf quote lexical ∧ term = literal lexical) ∨ term.IsName

end Term

structure TriplePattern.Plain (t : TriplePattern) : Prop where
  subject : t.subject.IsName
  predicate : t.predicate.IsVerb
  object : t.object.IsObject

def StartsWithTriples : Group → Prop
  | .triples _ :: _ => True
  | _ => False

-- Blocks of triples are inhabited and never stand next to each other, at any depth.
def Compact : Group → Prop
  | [] => True
  | .triples block :: rest => block ≠ [] ∧ ¬StartsWithTriples rest ∧ Compact rest
  | .group elements :: rest => Compact elements ∧ Compact rest
  | .minus elements :: rest => Compact elements ∧ Compact rest

structure SelectQuery.Plain (q : SelectQuery) : Prop where
  base : ∀ iri, q.prologue.base = some iri → IsIri iri
  prefixes : ∀ decl ∈ q.prologue.prefixes, IsLabel decl.label ∧ IsIri decl.iri
  projection : ∀ names, q.projection = .named names →
    names ≠ [] ∧ ∀ name ∈ names, IsVariableName name
  compact : Compact q.pattern
  triples : ∀ t ∈ allTriples q.pattern, t.Plain
  declared : ∀ t ∈ allTriples q.pattern, ∀ label name, .prefixed label name ∈ t.terms →
    (q.prologue.namespace? label).isSome

-- Every prefix in use has a namespace.
theorem undeclared_none {p : Prologue} {triples : List TriplePattern} :
    undeclared? p (triples.flatMap TriplePattern.terms) = none ↔
      ∀ t ∈ triples, ∀ label name, .prefixed label name ∈ t.terms → (p.namespace? label).isSome := by
  rw [undeclared?, List.findSome?_eq_none_iff]
  constructor
  · intro none t inside label name used
    have found := none _ (List.mem_flatMap.mpr ⟨t, inside, used⟩)
    cases known : p.namespace? label with
    | none => simp [known] at found
    | some iri => rfl
  · intro declared term member
    obtain ⟨t, inside, used⟩ := List.mem_flatMap.mp member
    cases term with
    | «prefixed» label name =>
      have known := declared t inside label name used
      rw [Option.isSome_iff_ne_none] at known
      simp [known]
    | «variable» name => rfl
    | iri text => rfl
    | rdfType => rfl
    | literal lexical => rfl

/-! ### Spelling -/

def IsKeyword (word token : Text) : Prop := Text.asciiLower token = Text.asciiLower word

instance (word token : Text) : Decidable (IsKeyword word token) := inferInstanceAs (Decidable (_ = _))

def IsVariableToken (name token : Text) : Prop :=
  IsVariableName name ∧ ∃ sigil, (sigil = '?' ∨ sigil = '$') ∧ token = sigil :: name

def IsIriToken (iri token : Text) : Prop := IsIri iri ∧ token = '<' :: (iri ++ ['>'])

namespace Term

inductive NameSpelled : Term → Text → Prop
  | «variable» {name token} : IsVariableToken name token → NameSpelled (.variable name) token
  | iri {iri token} : IsIriToken iri token → NameSpelled (.iri iri) token
  | «prefixed» {label name} : IsLabel label → label.head? ≠ some '-' → IsLocal name →
    NameSpelled (.prefixed label name) (label ++ ':' :: name)

inductive VerbSpelled : Term → Text → Prop
  | name {term token} : NameSpelled term token → VerbSpelled term token
  | rdfType {token} : IsKeyword "a" token → VerbSpelled .rdfType token

inductive ObjectSpelled : Term → Text → Prop
  | name {term token} : NameSpelled term token → ObjectSpelled term token
  | literal {quote lexical} : IsQuoteOf quote lexical →
    ObjectSpelled (.literal lexical) (quote :: (lexical ++ [quote]))

end Term

inductive ObjectsSpelled : List Term → List Text → Prop
  | last {object token} : object.ObjectSpelled token → ObjectsSpelled [object] [token]
  | more {object token objects tokens} : object.ObjectSpelled token →
    ObjectsSpelled objects tokens →
    ObjectsSpelled (object :: objects) (token :: [','] :: tokens)

inductive VerbObjectsSpelled : List VerbObject → List Text → Prop
  | mk {verb token objects tokens} : verb.VerbSpelled token → ObjectsSpelled objects tokens →
    VerbObjectsSpelled (objects.map fun object => (verb, object)) (token :: tokens)

-- What stands behind the first verb and its objects: semicolons, each with or without a verb.
inductive FurtherSpelled : List VerbObject → List Text → Prop
  | nil : FurtherSpelled [] []
  | idle {pairs tokens} : FurtherSpelled pairs tokens → FurtherSpelled pairs ([';'] :: tokens)
  | next {first front pairs tokens} : VerbObjectsSpelled first front →
    FurtherSpelled pairs tokens → FurtherSpelled (first ++ pairs) ([';'] :: (front ++ tokens))

inductive SentenceSpelled : List TriplePattern → List Text → Prop
  | mk {subject token first front pairs tokens} : subject.NameSpelled token →
    VerbObjectsSpelled first front → FurtherSpelled pairs tokens →
    SentenceSpelled ((first ++ pairs).map fun pair => ⟨subject, pair.1, pair.2⟩)
      (token :: (front ++ tokens))

-- A sentence that ends in a semicolon goes on unless something interrupts it.
def Interrupts (sentence tokens : List Text) : Prop :=
  sentence.getLast? = some [';'] → ∀ token, tokens.head? = some token →
    token = ['.'] ∨ token = ['\x7b'] ∨ IsKeyword "MINUS" token

-- The elements of a group, without its braces.
inductive GroupSpelled : Group → List Text → Prop
  | nil : GroupSpelled [] []
  | period {group tokens} : GroupSpelled group tokens → GroupSpelled group (['.'] :: tokens)
  | last {block sentence group tokens} : SentenceSpelled block sentence →
    GroupSpelled group tokens → ¬StartsWithTriples group → Interrupts sentence tokens →
    GroupSpelled (.triples block :: group) (sentence ++ tokens)
  | more {block sentence others group tokens} : SentenceSpelled block sentence →
    GroupSpelled (.triples others :: group) tokens → Interrupts sentence tokens →
    GroupSpelled (.triples (block ++ others) :: group) (sentence ++ tokens)
  | group {inner front group tokens} : GroupSpelled inner front → GroupSpelled group tokens →
    GroupSpelled (.group inner :: group) (['\x7b'] :: (front ++ ['\x7d'] :: tokens))
  | minus {word inner front group tokens} : IsKeyword "MINUS" word → GroupSpelled inner front →
    GroupSpelled group tokens →
    GroupSpelled (.minus inner :: group) (word :: ['\x7b'] :: (front ++ ['\x7d'] :: tokens))

-- Declarations lead from the prologue so far to the whole one. The last BASE holds.
inductive PrologueSpelled : Prologue → List Text → Prologue → Prop
  | done {declared} : PrologueSpelled declared [] declared
  | base {word iri token declared tokens whole} : IsKeyword "BASE" word → IsIriToken iri token →
    PrologueSpelled { declared with base := some iri } tokens whole →
    PrologueSpelled declared (word :: token :: tokens) whole
  | label {word label iri token declared tokens whole} : IsKeyword "PREFIX" word →
    IsLabel label → IsIriToken iri token →
    PrologueSpelled { declared with prefixes := declared.prefixes ++ [⟨label, iri⟩] } tokens whole →
    PrologueSpelled declared (word :: (label ++ [':']) :: token :: tokens) whole

inductive ModifierSpelled : Option Modifier → List Text → Prop
  | none : ModifierSpelled none []
  | distinct {word} : IsKeyword "DISTINCT" word → ModifierSpelled (some .distinct) [word]
  | reduced {word} : IsKeyword "REDUCED" word → ModifierSpelled (some .reduced) [word]

inductive NamesSpelled : List Text → List Text → Prop
  | nil : NamesSpelled [] []
  | name {name token names tokens} : IsVariableToken name token → NamesSpelled names tokens →
    NamesSpelled (name :: names) (token :: tokens)
  | comma {name token names tokens} : IsVariableToken name token → NamesSpelled names tokens →
    NamesSpelled (name :: names) (token :: [','] :: tokens)

inductive ProjectionSpelled : Projection → List Text → Prop
  | all : ProjectionSpelled .all [['*']]
  | named {names tokens} : names ≠ [] → NamesSpelled names tokens →
    ProjectionSpelled (.named names) tokens

inductive WhereSpelled : List Text → Prop
  | omitted : WhereSpelled []
  | written {word} : IsKeyword "WHERE" word → WhereSpelled [word]

inductive QuerySpelled : SelectQuery → List Text → Prop
  | mk {query declarations word «modifier» «projection» «where» body} :
    PrologueSpelled {} declarations query.prologue → IsKeyword "SELECT" word →
    ModifierSpelled query.modifier «modifier» → ProjectionSpelled query.projection «projection» →
    WhereSpelled «where» → GroupSpelled query.pattern body →
    QuerySpelled query (declarations ++ word :: («modifier» ++ («projection» ++
      («where» ++ ['\x7b'] :: (body ++ [['\x7d']])))))

/-! ### Layout -/

def Blanks (s : Text) : Prop := ∀ c ∈ s, isSpace c

def IsMark (token : Text) : Prop := token = ['.'] ∨ token = [','] ∨ token = [';']

-- Every token stands behind a gap, which may be empty only in front of a mark.
inductive Follows : List Text → Text → Prop
  | nil {s} : Blanks s → Follows [] s
  | cons {gap token tokens s} : Blanks gap → (gap = [] → IsMark token) → Follows tokens s →
    Follows (token :: tokens) (gap ++ (token ++ s))

inductive LaidOut : List Text → Text → Prop
  | nil {s} : Blanks s → LaidOut [] s
  | cons {gap token tokens s} : Blanks gap → Follows tokens s →
    LaidOut (token :: tokens) (gap ++ (token ++ s))

def SelectQuery.Writes (q : SelectQuery) (s : Text) : Prop :=
  ∃ tokens, QuerySpelled q tokens ∧ LaidOut tokens s

/-! ### Every plain query can be written -/

theorem is_keyword_self (word : Text) : IsKeyword word word := rfl

theorem spread_follows (tokens : List Text) : Follows tokens (tokens.flatMap (' ' :: ·)) := by
  induction tokens with
  | nil => exact .nil (by simp [Blanks])
  | cons token tokens ih =>
    have gap : Blanks [' '] := by simp [Blanks, isSpace]
    exact .cons gap (by simp) ih

theorem join_spread (token : Text) (tokens : List Text) :
    Text.join " " (token :: tokens) = token ++ tokens.flatMap (' ' :: ·) :=
  intercalate_flat [' '] token tokens

theorem join_laid_out (tokens : List Text) : LaidOut tokens (Text.join " " tokens) := by
  have gap : Blanks [] := by simp [Blanks]
  cases tokens with
  | nil => exact .nil gap
  | cons token tokens =>
    rw [join_spread]
    exact .cons gap (spread_follows tokens)

theorem variable_token_exists {name : Text} (plain : IsVariableName name) :
    ∃ token, IsVariableToken name token :=
  ⟨'?' :: name, plain, '?', .inl rfl, rfl⟩

namespace Term
variable {term : Term}

theorem name_spelling_exists (name : term.IsName) : ∃ token, NameSpelled term token := by
  cases term with
  | «variable» text =>
    obtain ⟨token, spelled⟩ := variable_token_exists name
    exact ⟨token, .variable spelled⟩
  | iri text => exact ⟨_, .iri ⟨name, rfl⟩⟩
  | «prefixed» label text => exact ⟨_, .prefixed name.1.1 name.1.2 name.2⟩
  | rdfType => exact name.elim
  | literal lexical => exact name.elim

theorem verb_spelling_exists (verb : term.IsVerb) : ∃ token, VerbSpelled term token := by
  rcases verb with rfl | name
  · exact ⟨"a".toList, .rdfType rfl⟩
  · obtain ⟨token, spelled⟩ := name_spelling_exists name
    exact ⟨token, .name spelled⟩

theorem object_spelling_exists (object : term.IsObject) :
    ∃ token, ObjectSpelled term token := by
  rcases object with ⟨quote, lexical, quoted, rfl⟩ | name
  · exact ⟨_, .literal quoted⟩
  · obtain ⟨token, spelled⟩ := name_spelling_exists name
    exact ⟨token, .name spelled⟩

end Term

theorem sentence_exists {t : TriplePattern} (plain : t.Plain) :
    ∃ sentence, SentenceSpelled [t] sentence := by
  obtain ⟨subject, subject_spelled⟩ := Term.name_spelling_exists plain.subject
  obtain ⟨verb, verb_spelled⟩ := Term.verb_spelling_exists plain.predicate
  obtain ⟨object, object_spelled⟩ := Term.object_spelling_exists plain.object
  exact ⟨_, .mk subject_spelled (.mk verb_spelled (.last object_spelled)) .nil⟩

theorem interrupts_period (sentence tokens : List Text) :
    Interrupts sentence (['.'] :: tokens) := by
  intro _ token first
  cases first
  exact .inl rfl

-- One sentence for each triple, a period behind each.
theorem block_exists {block : List TriplePattern} {group : Group} {tokens : List Text}
    (inhabited : block ≠ []) (plain : ∀ t ∈ block, t.Plain) (apart : ¬StartsWithTriples group)
    (spelled : GroupSpelled group tokens) :
    ∃ tokens, GroupSpelled (.triples block :: group) tokens := by
  induction block with
  | nil => exact absurd rfl inhabited
  | cons t block ih =>
    obtain ⟨sentence, first⟩ := sentence_exists (plain t (by simp))
    by_cases single : block = []
    · subst single
      exact ⟨_, .last first (.period spelled) apart (interrupts_period _ _)⟩
    · obtain ⟨others, rest⟩ := ih single fun u member => plain u (by simp [member])
      exact ⟨_, .more first (.period rest) (interrupts_period _ _)⟩

theorem group_exists : (group : Group) → Compact group → (∀ t ∈ allTriples group, t.Plain) →
    ∃ tokens, GroupSpelled group tokens
  | [], _, _ => ⟨[], .nil⟩
  | .triples block :: rest, compact, plain => by
    simp only [Compact] at compact
    simp only [allTriples, Element.allTriples, List.mem_append] at plain
    obtain ⟨tokens, spelled⟩ := group_exists rest compact.2.2 fun t member => plain t (.inr member)
    exact block_exists compact.1 (fun t member => plain t (.inl member)) compact.2.1 spelled
  | .group inner :: rest, compact, plain => by
    simp only [Compact] at compact
    simp only [allTriples, Element.allTriples, List.mem_append] at plain
    obtain ⟨front, first⟩ := group_exists inner compact.1 fun t member => plain t (.inl member)
    obtain ⟨tokens, spelled⟩ := group_exists rest compact.2 fun t member => plain t (.inr member)
    exact ⟨_, .group first spelled⟩
  | .minus inner :: rest, compact, plain => by
    simp only [Compact] at compact
    simp only [allTriples, Element.allTriples, List.mem_append] at plain
    obtain ⟨front, first⟩ := group_exists inner compact.1 fun t member => plain t (.inl member)
    obtain ⟨tokens, spelled⟩ := group_exists rest compact.2 fun t member => plain t (.inr member)
    exact ⟨_, .minus (is_keyword_self "MINUS") first spelled⟩

theorem prefixes_exist {prefixes : List PrefixDecl}
    (plain : ∀ decl ∈ prefixes, IsLabel decl.label ∧ IsIri decl.iri) (declared : Prologue) :
    ∃ tokens, PrologueSpelled declared tokens
      { declared with prefixes := declared.prefixes ++ prefixes } := by
  induction prefixes generalizing declared with
  | nil => exact ⟨[], by simpa using .done⟩
  | cons decl more ih =>
    obtain ⟨label, iri⟩ := plain decl (by simp)
    obtain ⟨tokens, spelled⟩ := ih (fun other member => plain other (by simp [member]))
      { declared with prefixes := declared.prefixes ++ [decl] }
    have all := PrologueSpelled.label (is_keyword_self "PREFIX") label ⟨iri, rfl⟩ spelled
    exact ⟨_, by simpa using all⟩

theorem prologue_exists {prologue : Prologue}
    (base : ∀ iri, prologue.base = some iri → IsIri iri)
    (prefixes : ∀ decl ∈ prologue.prefixes, IsLabel decl.label ∧ IsIri decl.iri) :
    ∃ tokens, PrologueSpelled {} tokens prologue := by
  obtain ⟨iri?, decls⟩ := prologue
  cases iri? with
  | none => simpa using prefixes_exist prefixes {}
  | some iri =>
    obtain ⟨tokens, spelled⟩ := prefixes_exist prefixes { base := some iri }
    have all : PrologueSpelled {} _ _ :=
      .base (is_keyword_self "BASE") ⟨base iri rfl, rfl⟩ spelled
    exact ⟨_, by simpa using all⟩

theorem names_exist {names : List Text} (plain : ∀ name ∈ names, IsVariableName name) :
    ∃ tokens, NamesSpelled names tokens := by
  induction names with
  | nil => exact ⟨[], .nil⟩
  | cons name names ih =>
    obtain ⟨token, first⟩ := variable_token_exists (plain name (by simp))
    obtain ⟨tokens, rest⟩ := ih fun other member => plain other (by simp [member])
    exact ⟨_, .name first rest⟩

theorem projection_exists {projection : Projection}
    (plain : ∀ names, projection = .named names →
      names ≠ [] ∧ ∀ name ∈ names, IsVariableName name) :
    ∃ tokens, ProjectionSpelled projection tokens := by
  cases projection with
  | all => exact ⟨_, .all⟩
  | named names =>
    obtain ⟨inhabited, each⟩ := plain names rfl
    obtain ⟨tokens, spelled⟩ := names_exist each
    exact ⟨tokens, .named inhabited spelled⟩

theorem modifier_exists (modifier : Option Modifier) :
    ∃ tokens, ModifierSpelled modifier tokens := by
  cases modifier with
  | none => exact ⟨_, .none⟩
  | some word =>
    cases word with
    | distinct => exact ⟨_, .distinct (is_keyword_self "DISTINCT")⟩
    | reduced => exact ⟨_, .reduced (is_keyword_self "REDUCED")⟩

theorem SelectQuery.Plain.writes_exists {q : SelectQuery} (plain : q.Plain) : ∃ s, q.Writes s := by
  obtain ⟨_, prologue⟩ := prologue_exists plain.base plain.prefixes
  obtain ⟨_, modifier⟩ := modifier_exists q.modifier
  obtain ⟨_, projection⟩ := projection_exists plain.projection
  obtain ⟨_, body⟩ := group_exists q.pattern plain.compact plain.triples
  have spelled := QuerySpelled.mk prologue (is_keyword_self "SELECT") modifier projection
    .omitted body
  exact ⟨_, _, spelled, join_laid_out _⟩

end TripleTable.Sparql
