import TripleTable.Proofs.Sparql.Positions
import TripleTable.Proofs.Sparql.Queries
set_option autoImplicit false

/-!
The loops of the readers. Each is described by what one of its rounds does, without a bound: it
leaves the loop, or it goes on further in the text, possibly after the same loop has been run from a
place in between. Rounds that only go on further come to an end on every text, and the bounds on
repetition, which exceed the length of the text, are never met.
-/
namespace TripleTable.Sparql

open Reader

-- A place behind `s` in the text: a shorter end of it.
def Further (s rest : Text) : Prop := rest <:+ s ∧ rest.length < s.length

theorem Further.behind {s u rest : Text} (further : Further s u) (later : rest <:+ u) :
    Further s rest :=
  ⟨later.trans further.1, later.length_le.trans_lt further.2⟩

theorem read_further {α : Type} {P : α → Prop} {r : Reader α} {s rest : Text} {value : α}
    (keeps : Keeps s P r) (moves : Moves 1 r) (read : r s = .ok (value, rest)) : Further s rest :=
  ⟨(keeps.read List.suffix_rfl read).1, (moves read).bound⟩

/-! ### Rounds and runs -/

section
variable {σ α : Type}

def joined (join : α → α) : Except Halt (α × Text) → Except Halt (α × Text)
  | .ok (value, rest) => .ok (join value, rest)
  | .error halt => .error halt

-- What a round comes to: it leaves the loop with its outcome; it continues in a new state further
-- on; or it enters the loop once more at an inner place and continues where that ends.
inductive Round (σ α : Type) where
  | leaves (outcome : Except Halt (α × Text))
  | continues (next : σ) (join : α → α) (rest : Text)
  | enters (inner : Text) (halted : Halt → Halt) (join : α → α → α)

def Round.run (again : σ → Reader α) (state : σ) : Round σ α → Except Halt (α × Text)
  | leaves outcome => outcome
  | continues next join rest => joined join (again next rest)
  | enters inner halted join =>
    match again state inner with
    | .error halt => .error (halted halt)
    | .ok (value, rest) => joined (join value) (again state rest)

-- A round leaves the loop at an end of its text, or takes it up again further on.
def Round.Advances (s : Text) : Round σ α → Prop
  | leaves outcome => ∀ value rest, outcome = .ok (value, rest) → rest <:+ s
  | continues _ _ rest => Further s rest
  | enters inner _ _ => Further s inner

-- The finite runs of a loop, round by round.
inductive Runs (round : σ → Text → Round σ α) : σ → Text → Except Halt (α × Text) → Prop
  | leaves {state s outcome} (here : round state s = .leaves outcome) : Runs round state s outcome
  | continues {state s next join rest outcome} (here : round state s = .continues next join rest)
    (behind : Runs round next rest outcome) : Runs round state s (joined join outcome)
  | halts {state s inner halted join halt} (here : round state s = .enters inner halted join)
    (within : Runs round state inner (.error halt)) : Runs round state s (.error (halted halt))
  | enters {state s inner halted join value rest outcome}
    (here : round state s = .enters inner halted join)
    (within : Runs round state inner (.ok (value, rest))) (behind : Runs round state rest outcome) :
    Runs round state s (joined (join value) outcome)

-- The loop is the repetition of its rounds. All of them advance, also where they go on behind an
-- inner run; and whenever the bound exceeds the length of the text, the outcome is the one that a
-- finite run comes to.
structure Progresses (round : σ → Text → Round σ α) (loop : Nat → σ → Reader α) : Prop where
  repeats : ∀ n state s, loop (n + 1) state s = (round state s).run (loop n) state
  advances : ∀ state s, (round state s).Advances s
  returns : ∀ state s inner halted join value rest, round state s = .enters inner halted join →
    Runs round state inner (.ok (value, rest)) → Further s rest
  ends : ∀ n state s, s.length < n → ∀ outcome,
    Runs round state s outcome ↔ loop n state s = outcome

variable {round : σ → Text → Round σ α} {loop : Nat → σ → Reader α}

@[simp] theorem joined_id (x : Except Halt (α × Text)) : joined id x = x := by
  cases x with
  | error halt => rfl
  | ok pair => rfl

theorem bind_joined (r : Reader α) (join : α → α) (s : Text) :
    (do return join (← r) : Reader α) s = joined join (r s) := by
  cases found : r s with
  | error halt => rw [bind_error found, joined]
  | ok pair => rw [bind_ok found, pure_run, joined]

theorem joined_read {join : α → α} {x : Except Halt (α × Text)} {value : α} {rest : Text}
    (read : joined join x = .ok (value, rest)) : ∃ value, x = .ok (value, rest) := by
  cases x with
  | error halt => cases read
  | ok pair =>
    cases read
    exact ⟨pair.1, rfl⟩

section
variable (repeats : ∀ n state s, loop (n + 1) state s = (round state s).run (loop n) state)
  (advances : ∀ state s, (round state s).Advances s)
include repeats advances

-- By induction on the bound, which exceeds the text wherever the loop is taken up again.
theorem loop_runs (n : Nat) (state : σ) (s : Text) (bound : s.length < n) :
    Runs round state s (loop n state s) ∧
      ∀ value rest, loop n state s = .ok (value, rest) → rest <:+ s := by
  induction n generalizing state s with
  | zero => cases bound
  | succ n ih =>
    have advance := advances state s
    have fits {u : Text} (further : Further s u) : u.length < n :=
      further.2.trans_le (Nat.le_of_lt_succ bound)
    rw [repeats]
    cases here : round state s with
    | leaves outcome =>
      rw [here] at advance
      exact ⟨.leaves here, advance⟩
    | continues next join rest =>
      rw [here] at advance
      obtain ⟨behind, suffix⟩ := ih next rest (fits advance)
      refine ⟨.continues here behind, fun value u read => ?_⟩
      obtain ⟨_, read⟩ := joined_read read
      exact (suffix _ _ read).trans advance.1
    | enters inner halted join =>
      rw [here] at advance
      obtain ⟨within, suffix⟩ := ih state inner (fits advance)
      rw [Round.run]
      cases found : loop n state inner with
      | error halt =>
        rw [found] at within
        exact ⟨.halts here within, by simp⟩
      | ok pair =>
        have further := advance.behind (suffix pair.1 pair.2 found)
        obtain ⟨behind, later⟩ := ih state pair.2 (fits further)
        rw [found] at within
        refine ⟨.enters here within behind, fun value u read => ?_⟩
        obtain ⟨_, read⟩ := joined_read read
        exact (later _ _ read).trans further.1

theorem runs_loop {n : Nat} {state : σ} {s : Text} {outcome : Except Halt (α × Text)}
    (runs : Runs round state s outcome) (bound : s.length < n) : loop n state s = outcome := by
  have unfolds {state : σ} {s : Text} {n : Nat} (bound : s.length < n) :
      ∃ m, s.length ≤ m ∧ loop n state s = (round state s).run (loop m) state := by
    obtain ⟨m, rfl⟩ := Nat.exists_eq_succ_of_ne_zero (Nat.ne_zero_of_lt bound)
    exact ⟨m, Nat.le_of_lt_succ bound, repeats m state s⟩
  induction runs generalizing n with
  | leaves here =>
    obtain ⟨m, _, same⟩ := unfolds bound
    rw [same, here, Round.run]
  | @continues state s _ _ _ _ here _ ih =>
    obtain ⟨m, most, same⟩ := unfolds bound
    have advance := advances state s
    rw [here] at advance
    rw [same, here, Round.run, ih (advance.2.trans_le most)]
  | @halts state s _ _ _ _ here _ ih =>
    obtain ⟨m, most, same⟩ := unfolds bound
    have advance := advances state s
    rw [here] at advance
    rw [same, here, Round.run, ih (advance.2.trans_le most)]
  | @enters state s inner _ _ _ rest _ here _ _ first second =>
    obtain ⟨m, most, same⟩ := unfolds bound
    have advance := advances state s
    rw [here] at advance
    have fits := advance.2.trans_le most
    have further := advance.behind
      ((loop_runs repeats advances m state inner fits).2 _ _ (first fits))
    rw [same, here, Round.run, first fits]
    dsimp only
    rw [second (further.2.trans_le most)]

theorem progresses : Progresses round loop := by
  refine ⟨repeats, advances, ?_, ?_⟩
  · intro state s inner halted join value rest here within
    have advance := advances state s
    rw [here] at advance
    have bound := Nat.lt_succ_self inner.length
    have read := runs_loop repeats advances within bound
    exact advance.behind ((loop_runs repeats advances _ state inner bound).2 value rest read)
  · intro n state s bound outcome
    constructor
    · exact fun runs => runs_loop repeats advances runs bound
    · rintro rfl
      exact (loop_runs repeats advances n state s bound).1

end
end

/-! ### The rounds of each loop -/

def declarationRound (declared : Prologue) (s : Text) : Round Prologue Prologue :=
  match baseDecl s with
  | .ok (iri, rest) => .continues { declared with base := some iri } id rest
  | .error (.final trace) => .leaves (.error (.final trace))
  | .error (.recoverable _) =>
    match prefixDecl s with
    | .ok (decl, rest) =>
      .continues { declared with prefixes := declared.prefixes ++ [decl] } id rest
    | .error (.final trace) => .leaves (.error (.final trace))
    | .error (.recoverable _) => .leaves (.ok (declared, s))

def itemRound {α : Type} (item : Reader α) (_ : Unit) (s : Text) : Round Unit (List α) :=
  match item s with
  | .ok (value, rest) => .continues () (value :: ·) rest
  | .error (.final trace) => .leaves (.error (.final trace))
  | .error (.recoverable _) => .leaves (.ok ([], s))

-- A semicolon is passed whether verb and objects follow or not.
def verbObjectsRound (_ : Unit) (s : Text) : Round Unit (List VerbObject) :=
  match spaced (char ';') s with
  | .error _ => .leaves (.ok ([], s))
  | .ok (_, rest) =>
    match verbObjects rest with
    | .ok (pairs, rest) => .continues () (pairs ++ ·) rest
    | .error (.final trace) => .leaves (.error (.final trace))
    | .error (.recoverable _) => .continues () id rest

-- Enters the loop behind an opening brace.
def braceRound (s : Text) (halted : Halt → Halt) (join : Group → Group → Group) :
    Round Unit Group :=
  match openBrace s with
  | .error halt => .leaves (.error (halted halt))
  | .ok (_, inner) => .enters inner halted join

-- At a text that begins with `c`, behind the blanks.
def roundAt (c : Char) (tail : Text) : Round Unit Group :=
  if c = '\x7d' then .leaves (.ok ([], tail))
  else match unsupported? (c :: tail) with
    | some message => .leaves (.error (.final [⟨message, c :: tail⟩]))
    | none =>
      if c = '.' then .continues () id tail
      else match spaced (keyword "MINUS") (c :: tail) with
        | .ok (_, rest) =>
          braceRound rest (fun halt => (Halt.final halt.trace).push ⟨"Error in MINUS block", rest⟩)
            fun inner others => .minus inner :: others
        | .error _ =>
          if c = '\x7b' then
            braceRound (c :: tail) id fun inner others => .group inner :: others
          else match within "Error in triple pattern" (commit sameSubject) (c :: tail) with
            | .ok (block, rest) => .continues () (consBlock block) rest
            | .error halt => .leaves (.error halt)

def elementsRound (_ : Unit) (s : Text) : Round Unit Group :=
  match s.dropWhile isSpace with
  | [] => .leaves (.error (.final [⟨"Unclosed group pattern: expected '\x7d'", []⟩]))
  | c :: tail => roundAt c tail

theorem declarations_progress : Progresses declarationRound prologueUpTo := by
  apply progresses
  · intro n declared s
    simp only [prologueUpTo, declarationRound]
    cases baseDecl s with
    | ok pair => simp only [Round.run, joined_id]
    | error halt =>
      cases halt with
      | final trace => rfl
      | recoverable trace =>
        dsimp only
        cases prefixDecl s with
        | ok pair => simp only [Round.run, joined_id]
        | error halt =>
          cases halt with
          | final trace => rfl
          | recoverable trace => rfl
  · intro declared s
    rw [declarationRound]
    split
    · rename_i found
      exact read_further keeps_base_decl moves_base_decl found
    · simp [Round.Advances]
    · split
      · rename_i found
        exact read_further keeps_prefix_decl moves_prefix_decl found
      · simp [Round.Advances]
      · simp [Round.Advances]

theorem items_progress {α : Type} {item : Reader α} (keeps : ∀ s, Forward s item)
    (moves : Moves 1 item) : Progresses (itemRound item) fun n _ => manyUpTo item n := by
  apply progresses
  · intro n _ s
    simp only [manyUpTo, itemRound]
    cases item s with
    | ok pair => exact bind_joined _ _ _
    | error halt =>
      cases halt with
      | recoverable trace => rfl
      | final trace => rfl
  · intro _ s
    rw [itemRound]
    split
    · rename_i found
      exact read_further (keeps s) moves found
    · simp [Round.Advances]
    · simp [Round.Advances]

theorem pairs_progress :
    Progresses verbObjectsRound fun n _ => verbObjectsBehindUpTo n := by
  apply progresses
  · intro n _ s
    simp only [verbObjectsBehindUpTo, verbObjectsRound]
    cases spaced (char ';') s with
    | error halt => rfl
    | ok semicolon =>
      dsimp only
      cases verbObjects semicolon.2 with
      | ok pair => exact bind_joined _ _ _
      | error halt =>
        cases halt with
        | recoverable trace => simp only [Round.run, joined_id]
        | final trace => rfl
  · intro _ s
    rw [verbObjectsRound]
    split
    · simp [Round.Advances]
    · rename_i semicolon
      have first := read_further (keeps_char _).spaced (moves_mark (by decide)) semicolon
      split
      · rename_i found
        exact first.behind (keeps_verb_objects.read List.suffix_rfl found).1
      · simp [Round.Advances]
      · exact first

-- A group in braces, however its failure is reported, and the elements behind it.
theorem brace_run {n : Nat} {s : Text} {halted : Halt → Halt} {braced : Reader Group}
    (make : Group → Element) (reported : braced s =
      match (do openBrace; elementsUpTo n : Reader Group) s with
      | .error halt => .error (halted halt)
      | .ok result => .ok result) :
    (do let inner ← braced
        return make inner :: (← elementsUpTo n) : Reader Group) s =
      (braceRound s halted fun inner others => make inner :: others).run
        (fun _ => elementsUpTo n) () := by
  rw [braceRound]
  cases opened : openBrace s with
  | error halt =>
    rw [bind_error opened] at reported
    rw [bind_error reported]
    rfl
  | ok pair =>
    rw [bind_ok opened] at reported
    simp only [Round.run]
    cases found : elementsUpTo n pair.2 with
    | error halt =>
      rw [found] at reported
      rw [bind_error reported]
    | ok result =>
      rw [found] at reported
      rw [bind_ok reported, bind_joined]

theorem brace_advances {s : Text} {halted : Halt → Halt} {join : Group → Group → Group} :
    (braceRound s halted join).Advances s := by
  rw [braceRound]
  split
  · simp [Round.Advances]
  · rename_i opened
    exact read_further keeps_open moves_open opened

theorem Round.Advances.earlier {σ α : Type} {s u : Text} {round : Round σ α}
    (advances : round.Advances u) (behind : u <:+ s) : round.Advances s := by
  have further {rest : Text} (further : Further u rest) : Further s rest :=
    ⟨further.1.trans behind, further.2.trans_le behind.length_le⟩
  cases round with
  | leaves outcome => exact fun value rest read => (advances value rest read).trans behind
  | continues next join rest => exact further advances
  | enters inner halted join => exact further advances

theorem round_at_run (n : Nat) (c : Char) (tail : Text) :
    elementRound n c tail = (roundAt c tail).run (fun _ => elementsUpTo n) () := by
  rw [elementRound, roundAt]
  by_cases closes : c = '\x7d'
  · rw [if_pos closes, if_pos closes]
    rfl
  · rw [if_neg closes, if_neg closes]
    cases unsupported? (c :: tail) with
    | some message => rfl
    | none =>
      by_cases period : c = '.'
      · simp only [if_pos period, Round.run, joined_id]
      · simp only [if_neg period]
        cases spaced (keyword "MINUS") (c :: tail) with
        | ok pair =>
          apply brace_run
          rw [within, commit]
          cases (do openBrace; elementsUpTo n : Reader Group) pair.2 with
          | error halt => rfl
          | ok result => rfl
        | error halt =>
          by_cases opens : c = '\x7b'
          · simp only [if_pos opens]
            apply brace_run
            cases (do openBrace; elementsUpTo n : Reader Group) (c :: tail) with
            | error halt => rfl
            | ok result => rfl
          · simp only [if_neg opens, triplesBlock]
            cases found : within "Error in triple pattern" (commit sameSubject) (c :: tail) with
            | error halt =>
              rw [bind_error found]
              rfl
            | ok pair =>
              rw [bind_ok found, bind_joined]
              rfl

theorem round_at_advances (c : Char) (tail : Text) : (roundAt c tail).Advances (c :: tail) := by
  have next : Further (c :: tail) tail := ⟨List.suffix_cons c tail, by simp⟩
  rw [roundAt]
  split
  · intro value rest read
    cases read
    exact next.1
  · split
    · simp [Round.Advances]
    · split
      · exact next
      · split
        · rename_i word
          exact brace_advances.earlier ((keeps_keyword _).spaced.read List.suffix_rfl word).1
        · split
          · exact brace_advances
          · split
            · rename_i found
              exact read_further (keeps_subject.commit.within _) (moves_subject.commit.within _)
                found
            · simp [Round.Advances]

theorem elements_progress : Progresses elementsRound fun n _ => elementsUpTo n := by
  apply progresses
  · intro n _ s
    rw [elementsRound]
    cases here : s.dropWhile isSpace with
    | nil =>
      rw [elementsUpTo]
      simp only [here]
      rfl
    | cons c tail => exact (elements_round n here).trans (round_at_run n c tail)
  · intro _ s
    have lead : s.dropWhile isSpace <:+ s := List.dropWhile_suffix isSpace
    rw [elementsRound]
    cases here : s.dropWhile isSpace with
    | nil => simp [Round.Advances]
    | cons c tail =>
      rw [here] at lead
      exact (round_at_advances c tail).earlier lead

/-! ### The readers -/

def LeavesEnd {α : Type} (r : Reader α) : Prop :=
  ∀ s value rest, r s = .ok (value, rest) → rest <:+ s

def LeavesLess {α : Type} (r : Reader α) : Prop :=
  ∀ s value rest, r s = .ok (value, rest) → Further s rest

theorem leaves_end {α : Type} {P : Text → α → Prop} {r : Reader α} (keeps : ∀ s, Keeps s (P s) r) :
    LeavesEnd r :=
  fun s _ _ read => ((keeps s).read List.suffix_rfl read).1

theorem leaves_less {α : Type} {P : Text → α → Prop} {r : Reader α} (keeps : ∀ s, Keeps s (P s) r)
    (moves : Moves 1 r) : LeavesLess r :=
  fun s _ _ read => read_further (keeps s) moves read

-- What is left where a reader succeeds, for each part of a query.
structure ReadersAdvance : Prop where
  gaps : ∀ (α : Type) (r : Reader α), LeavesEnd r → LeavesEnd (spaced r)
  words : ∀ word, LeavesEnd (keyword word)
  variableNames : LeavesEnd variableName
  iris : LeavesEnd iriRef
  locals : LeavesEnd localPart
  prefixedNames : LeavesEnd prefixedName
  strings : LeavesEnd stringLiteral
  suffixes : LeavesEnd stringSuffix
  numbers : LeavesEnd numericLiteral
  booleans : LeavesEnd booleanLiteral
  subjects : LeavesLess namedTerm
  verbs : LeavesLess verb
  objects : LeavesLess objectTerm
  pairs : LeavesLess verbObjects
  lists : LeavesLess predicateObjectList
  triples : LeavesLess sameSubject
  groups : LeavesLess group
  bases : LeavesLess baseDecl
  labels : LeavesLess prefixDecl
  prologues : LeavesEnd prologue
  modifiers : LeavesEnd modifier
  projections : LeavesEnd projection
  clauses : LeavesLess selectClause
  queries : LeavesEnd selectQuery

theorem readers_advance : ReadersAdvance where
  gaps α r ends s value rest read := by
    obtain ⟨t, here, rfl⟩ := spaced_begins read
    exact ((List.dropWhile_suffix isSpace).trans (ends _ _ _ here)).trans
      (List.dropWhile_suffix isSpace)
  words word := leaves_end fun _ => keeps_keyword word
  variableNames := leaves_end fun _ => keeps_variable
  iris := leaves_end fun _ => keeps_iri
  locals := leaves_end fun _ => keeps_local
  prefixedNames := leaves_end fun _ => keeps_prefixed
  strings := leaves_end fun _ => keeps_string
  suffixes := leaves_end fun _ => keeps_suffix
  numbers := leaves_end fun _ => keeps_numeric
  booleans := leaves_end fun _ => keeps_boolean
  subjects := leaves_less (fun _ => keeps_named) moves_named
  verbs := leaves_less (fun _ => keeps_verb) moves_verb
  objects := leaves_less (fun _ => keeps_object) moves_object
  pairs := leaves_less (fun _ => keeps_verb_objects) moves_verb_objects
  lists := leaves_less (fun _ => keeps_list) moves_list
  triples := leaves_less (fun _ => keeps_subject) moves_subject
  groups := leaves_less (fun _ => keeps_group) moves_group
  bases := leaves_less (fun _ => keeps_base_decl) moves_base_decl
  labels := leaves_less (fun _ => keeps_prefix_decl) moves_prefix_decl
  prologues := leaves_end fun _ => keeps_prologue
  modifiers := leaves_end fun _ => keeps_modifier
  projections := leaves_end fun _ => keeps_projection
  clauses := leaves_less (fun _ => keeps_clause) moves_clause
  queries := leaves_end fun _ => keeps_query

-- An item of the lists: an object behind its comma, a variable with the comma behind it.
abbrev furtherObject : Reader Term := spaced (char ',') *> spaced objectTerm

theorem objects_progress : Progresses (itemRound furtherObject)
    fun n _ => behindUpTo (spaced (char ',')) (spaced objectTerm) n := by
  have moves : Moves (1 + 1) furtherObject := (moves_mark (by decide)).behind moves_object.spaced
  have keeps (s : Text) : Forward s furtherObject :=
    (keeps_char _).spaced.bind fun _ _ => keeps_object.spaced.forward
  have progress := items_progress keeps (moves.at_least (by decide))
  simpa only [behind_many] using progress

theorem names_progress : Progresses (itemRound listedName) fun n _ => manyUpTo listedName n := by
  have comma : Moves 0 (optional (spaced (char ','))) := (moves_mark (by decide)).optional
  apply items_progress
  · exact fun s => keeps_variable.spaced.bind fun _ _ => (keeps_char _).spaced.optional.bind
      fun _ _ => keeps_pure trivial
  · exact moves_variable.spaced.bind fun name => comma.bind fun _ => moves_pure name

-- Each loop, where a reader has come to it, is run to an end.
structure LoopsEnd : Prop where
  declarations : ∀ s, Runs declarationRound {} s (prologue s)
  elements : ∀ s rest, openBrace s = .ok ((), rest) → Runs elementsRound () rest (group s)
  pairs : ∀ s first rest, verbObjects s = .ok (first, rest) → ∃ outcome,
    Runs verbObjectsRound () rest outcome ∧ predicateObjectList s = joined (first ++ ·) outcome
  objects : ∀ s first rest, spaced objectTerm s = .ok (first, rest) → ∃ outcome,
    Runs (itemRound furtherObject) () rest outcome ∧
      separated (spaced (char ',')) (spaced objectTerm) s = joined (first :: ·) outcome
  names : ∀ s first rest, listedName s = .ok (first, rest) → ∃ outcome,
    Runs (itemRound listedName) () rest outcome ∧ many1 listedName s = joined (first :: ·) outcome

theorem loops_end : LoopsEnd where
  declarations s := (declarations_progress.ends _ _ s (Nat.lt_succ_self _) _).mpr rfl
  elements s rest opened := by
    have shorter := (read_further keeps_open moves_open opened).2
    refine (elements_progress.ends (s.length + 1) () rest (by omega) _).mpr ?_
    rw [group, bind_ok opened]
  pairs s first rest read := by
    refine ⟨_, (pairs_progress.ends _ () rest (Nat.lt_succ_self _) _).mpr rfl, ?_⟩
    rw [predicateObjectList, bind_ok read, bind_joined]
  objects s first rest read := by
    refine ⟨_, (objects_progress.ends _ () rest (Nat.lt_succ_self _) _).mpr rfl, ?_⟩
    rw [separated, bind_ok read, bind_joined]
  names s first rest read := by
    refine ⟨_, (names_progress.ends _ () rest (Nat.lt_succ_self _) _).mpr rfl, ?_⟩
    simp only [many1, read]
    exact bind_joined _ _ _

-- Parsing makes progress: the rounds of every loop leave it or go on at a shorter end of the text,
-- whatever the text holds, so that every loop is run to an end; and what a reader leaves is an end
-- of its text, a shorter one behind terms, triples and groups.
theorem parsing_progresses :
    Progresses declarationRound prologueUpTo ∧
    Progresses elementsRound (fun n _ => elementsUpTo n) ∧
    Progresses verbObjectsRound (fun n _ => verbObjectsBehindUpTo n) ∧
    Progresses (itemRound furtherObject)
      (fun n _ => behindUpTo (spaced (char ',')) (spaced objectTerm) n) ∧
    Progresses (itemRound listedName) (fun n _ => manyUpTo listedName n) ∧
    ReadersAdvance ∧ LoopsEnd :=
  ⟨declarations_progress, elements_progress, pairs_progress, objects_progress, names_progress,
    readers_advance, loops_end⟩

end TripleTable.Sparql
