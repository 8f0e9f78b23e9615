import TripleTable.Proofs.Sparql.Consumption
set_option autoImplicit false

/-!
Readers on two texts at once. On texts in a relation both readings fail in the same way, or both
succeed with values that answer to each other and leave texts in a relation behind, unless something
in the second text alone ends its reading.
-/
namespace TripleTable.Sparql

namespace Reader

section
variable {α β γ δ : Type}

-- Two outcomes of one kind, the second value being `φ` of the first one and the rests in `Out`; or
-- the second reading ends with an innermost entry in `Stop`.
inductive Agree (Stop : Entry → Prop) (Out : Text → Text → Prop) (φ : α → β) :
    Except Halt (α × Text) → Except Halt (β × Text) → Prop
  | reads {value : α} {rest rest' : Text} (behind : Out rest rest') :
    Agree Stop Out φ (.ok (value, rest)) (.ok (φ value, rest'))
  | recovers {trace trace' : Trace} :
    Agree Stop Out φ (.error (.recoverable trace)) (.error (.recoverable trace'))
  | ends {trace trace' : Trace} :
    Agree Stop Out φ (.error (.final trace)) (.error (.final trace'))
  | stops {x : Except Halt (α × Text)} {entry : Entry} {trace : Trace} (stop : Stop entry) :
    Agree Stop Out φ x (.error (.final (entry :: trace)))

-- From texts in `In`, the two readings have outcomes of one kind.
def Alike (Stop : Entry → Prop) (In Out : Text → Text → Prop) (φ : α → β) (r : Reader α)
    (r' : Reader β) : Prop :=
  ∀ ⦃s s'⦄, In s s' → Agree Stop Out φ (r s) (r' s')

variable {Stop : Entry → Prop} {In Mid Out : Text → Text → Prop} {s s' : Text} {φ : α → β}
  {ψ : γ → δ} {r : Reader α} {r' : Reader β}

theorem Agree.fails (fails : Fails r s) (fails' : Fails r' s') :
    Agree Stop Out φ (r s) (r' s') := by
  obtain ⟨trace, here⟩ := fails
  obtain ⟨trace', there⟩ := fails'
  rw [here, there]
  exact .recovers

theorem Agree.error {x : Except Halt (α × Text)} {halt : Halt} (never : ∀ entry, ¬Stop entry)
    (agree : Agree Stop Out φ x (.error halt)) : ∃ halt, x = .error halt := by
  cases agree with
  | recovers => exact ⟨_, rfl⟩
  | ends => exact ⟨_, rfl⟩
  | stops stop => exact absurd stop (never _)

theorem Alike.sub (alike : Alike Stop Mid Out φ r r') (sub : ∀ ⦃s s'⦄, In s s' → Mid s s') :
    Alike Stop In Out φ r r' :=
  fun _ _ start => alike (sub start)

theorem Alike.out (alike : Alike Stop In Mid φ r r') (sub : ∀ ⦃s s'⦄, Mid s s' → Out s s') :
    Alike Stop In Out φ r r' := by
  intro s s' start
  have agree := alike start
  generalize r s = x, r' s' = x' at agree ⊢
  cases agree with
  | reads behind => exact .reads (sub behind)
  | recovers => exact .recovers
  | ends => exact .ends
  | stops stop => exact .stops stop

theorem Alike.bind {f : α → Reader γ} {f' : β → Reader δ} (first : Alike Stop In Mid φ r r')
    (later : ∀ value, Alike Stop Mid Out ψ (f value) (f' (φ value))) :
    Alike Stop In Out ψ (r >>= f) (r' >>= f') := by
  intro s s' start
  have agree := first start
  simp only [Bind.bind, StateT.bind, Except.bind]
  generalize r s = x, r' s' = x' at agree ⊢
  cases agree with
  | reads behind => exact later _ behind
  | recovers => exact .recovers
  | ends => exact .ends
  | stops stop => exact .stops stop

theorem Alike.then {q : Reader γ} {q' : Reader δ} (first : Alike Stop In Mid φ r r')
    (later : Alike Stop Mid Out ψ q q') :
    Alike Stop In Out ψ (r >>= fun _ => q) (r' >>= fun _ => q') :=
  first.bind fun _ => later

theorem alike_pure (φ : α → β) (value : α) : Alike Stop In In φ (pure value) (pure (φ value)) :=
  fun _ _ start => .reads start

theorem alike_answer {value : α} {value' : β} (same : φ value = value') :
    Alike Stop In In φ (pure value) (pure value') := by
  rw [← same]
  exact alike_pure φ value

-- What `f` makes of a value, it makes of the value that answers to it.
theorem Alike.map {φ : α → α} {r r' : Reader α} (alike : Alike Stop In Out φ r r') (f : α → γ)
    (ψ : γ → γ) (same : ∀ value, ψ (f value) = f (φ value)) :
    Alike Stop In Out ψ (f <$> r) (f <$> r') := by
  intro s s' start
  have agree := alike start
  simp only [Functor.map, StateT.map, Bind.bind, Except.bind]
  generalize r s = x, r' s' = x' at agree ⊢
  cases agree with
  | @reads value rest rest' behind =>
    have answers : Agree Stop Out ψ (.ok (f value, rest)) (.ok (ψ (f value), rest')) :=
      .reads behind
    rw [same] at answers
    exact answers
  | recovers => exact .recovers
  | ends => exact .ends
  | stops stop => exact .stops stop

-- Values in front of a list that is read behind them.
theorem Alike.listed {r : Reader (List α)} {r' : Reader (List β)}
    (alike : Alike Stop In Out (List.map φ) r r') (first : List α) :
    Alike Stop In Out (List.map φ) (do return first ++ (← r)) (do return first.map φ ++ (← r')) :=
  alike.bind fun _ => alike_answer List.map_append

theorem Alike.within (alike : Alike Stop In Out φ r r') (context : String) :
    Alike Stop In Out φ (within context r) (within context r') := by
  intro s s' start
  have agree := alike start
  unfold Reader.within
  generalize r s = x, r' s' = x' at agree ⊢
  cases agree with
  | reads behind => exact .reads behind
  | recovers => exact .recovers
  | ends => exact .ends
  | stops stop => exact .stops stop

theorem Alike.commit (alike : Alike Stop In Out φ r r') :
    Alike Stop In Out φ (commit r) (commit r') := by
  intro s s' start
  have agree := alike start
  unfold Reader.commit
  generalize r s = x, r' s' = x' at agree ⊢
  cases agree with
  | reads behind => exact .reads behind
  | recovers => exact .ends
  | ends => exact .ends
  | stops stop => exact .stops stop

theorem Alike.optional (alike : Alike Stop In Out φ r r') (sub : ∀ ⦃s s'⦄, In s s' → Out s s') :
    Alike Stop In Out (Option.map φ) (optional r) (optional r') := by
  intro s s' start
  have agree := alike start
  unfold Reader.optional
  generalize r s = x, r' s' = x' at agree ⊢
  cases agree with
  | reads behind => exact .reads behind
  | recovers => exact .reads (sub start)
  | ends => exact .ends
  | stops stop => exact .stops stop

theorem alike_last (alike : Alike Stop In Out φ r r') :
    Alike Stop In Out φ (firstOf [r]) (firstOf [r']) := by
  intro s s' start
  have agree := alike start
  unfold firstOf
  generalize r s = x, r' s' = x' at agree ⊢
  cases agree with
  | reads behind => exact .reads behind
  | recovers => exact .recovers
  | ends => exact .ends
  | stops stop => exact .stops stop

theorem Alike.or {next : Reader α} {next' : Reader β} {others : List (Reader α)}
    {others' : List (Reader β)} (first : Alike Stop In Out φ r r')
    (later : Alike Stop In Out φ (firstOf (next :: others)) (firstOf (next' :: others'))) :
    Alike Stop In Out φ (firstOf (r :: next :: others)) (firstOf (r' :: next' :: others')) := by
  intro s s' start
  have agree := first start
  have agree_later := later start
  unfold firstOf
  generalize r s = x, r' s' = x' at agree ⊢
  cases agree with
  | reads behind => exact .reads behind
  | recovers => exact agree_later
  | ends => exact .ends
  | stops stop => exact .stops stop

end
end Reader

/-! ### Gaps and repetition -/

-- Texts in a relation but for the blanks that they begin with.
def Begun (R : Text → Text → Prop) (s s' : Text) : Prop :=
  R (s.dropWhile isSpace) (s'.dropWhile isSpace)

-- Both texts are short enough for a bound on each side.
structure Bounded (R : Text → Text → Prop) (n n' : Nat) (s s' : Text) : Prop where
  related : R s s'
  short : s.length < n
  short' : s'.length < n'

namespace Reader

section
variable {α β γ δ : Type} {Stop : Entry → Prop} {R In : Text → Text → Prop} {n n' k : Nat}
  {φ : α → β} {ψ : γ → δ} {r item : Reader α} {r' item' : Reader β} {separator : Reader γ}
  {separator' : Reader δ}

theorem Alike.spaced (waits : ∀ ⦃s s'⦄, R s s' → Begun R s s') (alike : Alike Stop R R φ r r') :
    Alike Stop (Begun R) R φ (spaced r) (spaced r') := by
  have trailing (value : α) : Alike Stop R R φ (do let _ ← run isSpace; return value)
      (do let _ ← run isSpace; return φ value) := fun _ _ start => .reads (waits start)
  have behind : Alike Stop R R φ (do let value ← r; let _ ← run isSpace; return value)
      (do let value ← r'; let _ ← run isSpace; return value) := alike.bind trailing
  exact fun _ _ begun => behind begun

theorem Alike.bounded (alike : Alike Stop In R φ r r') (moves : Moves k r) (moves' : Moves k r') :
    Alike Stop (Bounded In (n + k) (n' + k)) (Bounded R n n') φ r r' := by
  intro s s' start
  have agree := alike start.related
  have short : ∀ value rest, r s = .ok (value, rest) → rest.length < n := by
    intro value rest read
    have bound := (moves read).bound
    have above := start.short
    omega
  have short' : ∀ value rest, r' s' = .ok (value, rest) → rest.length < n' := by
    intro value rest read
    have bound := (moves' read).bound
    have above := start.short'
    omega
  generalize r s = x, r' s' = x' at agree short short' ⊢
  cases agree with
  | reads behind => exact .reads ⟨behind, short _ _ rfl, short' _ _ rfl⟩
  | recovers => exact .recovers
  | ends => exact .ends
  | stops stop => exact .stops stop

-- A reader that is alike within bounds only leaves texts within them.
theorem Alike.stays (alike : Alike Stop (Bounded In (n + k) (n' + k)) R φ r r') (moves : Moves k r)
    (moves' : Moves k r') : Alike Stop (Bounded In (n + k) (n' + k)) (Bounded R n n') φ r r' :=
  (alike.bounded moves moves').sub fun _ _ start => ⟨start, start.short, start.short'⟩

theorem bounded_none : Alike Stop (Bounded In 0 n') R φ r r' :=
  fun _ _ start => absurd start.short (Nat.not_lt_zero _)

theorem bounded_none' : Alike Stop (Bounded In n 0) R φ r r' :=
  fun _ _ start => absurd start.short' (Nat.not_lt_zero _)

theorem alike_many (alike : Alike Stop R R φ item item') (moves : Moves 1 item)
    (moves' : Moves 1 item') (n n' : Nat) :
    Alike Stop (Bounded R n n') R (List.map φ) (manyUpTo item n) (manyUpTo item' n') := by
  induction n generalizing n' with
  | zero => exact bounded_none
  | succ n ih =>
    cases n' with
    | zero => exact bounded_none'
    | succ n' =>
      intro s s' start
      have agree := (alike.bounded moves moves') start
      unfold manyUpTo
      generalize item s = x, item' s' = x' at agree ⊢
      cases agree with
      | @reads value rest rest' behind =>
        exact (ih n').listed [value] behind
      | recovers => exact .reads start.related
      | ends => exact .ends
      | stops stop => exact .stops stop

theorem alike_many1 (alike : Alike Stop R R φ item item') (moves : Moves 1 item)
    (moves' : Moves 1 item') :
    Alike Stop R R (List.map φ) (many1 item) (many1 item') := by
  intro s s' start
  have agree := alike start
  unfold many1
  generalize item s = x, item' s' = x' at agree ⊢
  cases agree with
  | @reads value rest rest' behind =>
    exact (alike_many alike moves moves' _ _).listed [value]
      ⟨behind, Nat.lt_succ_self _, Nat.lt_succ_self _⟩
  | recovers => exact .recovers
  | ends => exact .ends
  | stops stop => exact .stops stop

theorem alike_behind (first : Alike Stop R R ψ separator separator')
    (second : Alike Stop R R φ item item') (moves : Moves 1 (separator *> item))
    (moves' : Moves 1 (separator' *> item')) (n n' : Nat) :
    Alike Stop (Bounded R n n') R (List.map φ) (behindUpTo separator item n)
      (behindUpTo separator' item' n') := by
  rw [behind_many, behind_many]
  exact alike_many (first.then second) moves moves' n n'

theorem alike_separated (first : Alike Stop R R ψ separator separator')
    (second : Alike Stop R R φ item item') (moves : Moves 1 (separator *> item))
    (moves' : Moves 1 (separator' *> item')) :
    Alike Stop R R (List.map φ) (separated separator item) (separated separator' item') := by
  apply second.bind
  intro value s s' start
  exact (alike_behind first second moves moves' _ _).listed [value]
    ⟨start, Nat.lt_succ_self _, Nat.lt_succ_self _⟩

end
end Reader

open Reader

/-! ### Plain characters -/

-- A character that stands for itself and opens or closes no group.
def isPlain (c : Char) : Bool := isBare c && c != '\x7b' && c != '\x7d'

theorem plain_bare {c : Char} (plain : isPlain c) : isBare c := by
  simp only [isPlain, Bool.and_eq_true] at plain
  exact plain.1.1

theorem plain_kind {p : Char → Bool} (each : ∀ c, p c → isBare c) (opening : p '\x7b' = false)
    (closing : p '\x7d' = false) (c : Char) (kind : p c) : isPlain c := by
  have apart : ∀ d, p d = false → c ≠ d := by
    rintro d closed rfl
    rw [kind] at closed
    cases closed
  simp [isPlain, each c kind, apart _ opening, apart _ closing]

theorem letter_plain {c : Char} (letter : c.isAlpha) : isPlain c :=
  plain_kind (fun _ => letter_bare) (by decide) (by decide) c letter

theorem variable_plain : ∀ c, isVariableChar c → isPlain c :=
  plain_kind variable_bare (by decide) (by decide)

theorem name_plain : ∀ c, isNameChar c → isPlain c :=
  plain_kind name_bare (by decide) (by decide)

theorem local_plain : ∀ c, isLocalChar c → isPlain c :=
  plain_kind local_bare (by decide) (by decide)

theorem sigil_plain : ∀ c, (c == '?' || c == '$') → isPlain c :=
  plain_kind sigil_bare (by decide) (by decide)

theorem sign_plain : ∀ c, isSign c → isPlain c := plain_kind sign_bare (by decide) (by decide)

theorem digit_plain : ∀ c, c.isDigit → isPlain c := plain_kind digit_bare (by decide) (by decide)

theorem exponent_plain : ∀ c, (c == 'e' || c == 'E') → isPlain c :=
  plain_kind exponent_bare (by decide) (by decide)

def Closed (s : Text) : Prop := ∀ c ∈ s.head?, isPlain c = false

-- Texts in the relation begin with the same plain character or with none.
def Matching (R : Text → Text → Prop) : Prop :=
  ∀ ⦃s s'⦄, R s s' →
    (∃ c t t', isPlain c ∧ s = c :: t ∧ s' = c :: t' ∧ R t t') ∨ Closed s ∧ Closed s'

theorem closed_cons {c : Char} (special : isPlain c = false) (s : Text) : Closed (c :: s) := by
  intro d head
  cases head
  exact special

theorem blank_special {c : Char} (blank : isBlank c) : isPlain c = false := by
  simp [isPlain, isBare, blank]

theorem plain_other {c d : Char} (plain : isPlain c) (special : isPlain d = false) : c ≠ d := by
  rintro rfl
  rw [plain] at special
  cases special

theorem quote_special {c : Char} (mark : c = '"' ∨ c = '\'') : isPlain c = false := by
  rcases mark with rfl | rfl
  · decide
  · decide

-- Behind one front of such characters, the texts are in the relation.
def Fronted (R : Text → Text → Prop) (whole whole' s s' : Text) : Prop :=
  ∃ front, (∀ c ∈ front, isPlain c) ∧ whole = front ++ s ∧ whole' = front ++ s' ∧ R s s'

theorem fronted_matching {R : Text → Text → Prop} (matching : Matching R) (whole whole' : Text) :
    Matching (Fronted R whole whole') := by
  rintro s s' ⟨front, all, rfl, rfl, start⟩
  rcases matching start with ⟨c, t, t', kind, rfl, rfl, rest⟩ | closed
  · refine .inl ⟨c, t, t', kind, rfl, rfl, front ++ [c], ?_, by simp, by simp, rest⟩
    exact List.forall_mem_append.mpr ⟨all, by simpa using kind⟩
  · exact .inr closed

section
variable {Stop : Entry → Prop} {R : Text → Text → Prop} {s s' : Text} {p : Char → Bool}

theorem closed_stops (each : ∀ c, p c → isPlain c) (closed : Closed s) :
    ∀ c ∈ s.head?, p c = false := by
  intro c head
  by_contra kind
  have special := closed c head
  rw [each c (by simpa using kind)] at special
  cases special

theorem matching_run (matching : Matching R) (each : ∀ c, p c → isPlain c) (start : R s s') :
    s.takeWhile p = s'.takeWhile p ∧ R (s.dropWhile p) (s'.dropWhile p) := by
  induction s generalizing s' with
  | nil =>
    rcases matching start with ⟨_, _, _, _, split, _, _⟩ | ⟨_, closed⟩
    · cases split
    · have stops := stops_run (closed_stops each closed)
      rw [stops.1, stops.2]
      exact ⟨rfl, start⟩
  | cons d s ih =>
    rcases matching start with ⟨c, t, t', kind, split, rfl, rest⟩ | ⟨closed, closed'⟩
    · cases split
      by_cases inside : p d
      · obtain ⟨same, behind⟩ := ih rest
        simp only [List.takeWhile_cons_of_pos inside, List.dropWhile_cons_of_pos inside, same]
        exact ⟨trivial, behind⟩
      · simp only [List.takeWhile_cons_of_neg inside, List.dropWhile_cons_of_neg inside]
        exact ⟨trivial, start⟩
    · have stops := stops_run (closed_stops each closed)
      have stops' := stops_run (closed_stops each closed')
      rw [stops.1, stops.2, stops'.1, stops'.2]
      exact ⟨rfl, start⟩

theorem matching_front {front t : Text} (matching : Matching R) (all : ∀ c ∈ front, isPlain c)
    (start : R (front ++ t) s') : ∃ t', s' = front ++ t' ∧ R t t' := by
  induction front generalizing s' with
  | nil => exact ⟨s', rfl, start⟩
  | cons c front ih =>
    obtain ⟨first, others⟩ := List.forall_mem_cons.mp all
    rcases matching start with ⟨d, u, u', kind, split, rfl, rest⟩ | ⟨closed, _⟩
    · cases split
      obtain ⟨t', rfl, behind⟩ := ih others rest
      exact ⟨t', rfl, behind⟩
    · rw [closed c rfl] at first
      cases first

theorem closed_one (each : ∀ c, p c → isPlain c) (closed : Closed s) : Fails (oneOf p) s := by
  cases s with
  | nil => exact ⟨_, rfl⟩
  | cons c s => exact ⟨[unexpected (c :: s)], by simp [oneOf, closed_stops each closed c rfl]⟩

theorem closed_char {c : Char} (kind : isPlain c) (closed : Closed s) : Fails (char c) s := by
  cases s with
  | nil => exact ⟨_, rfl⟩
  | cons d s =>
    apply char_fails
    rintro rfl
    rw [closed d rfl] at kind
    cases kind

theorem alike_char {c : Char} (matching : Matching R) (kind : isPlain c) :
    Alike Stop R R id (char c) (char c) := by
  intro s s' start
  rcases matching start with ⟨d, t, t', _, rfl, rfl, rest⟩ | ⟨closed, closed'⟩
  · unfold char
    by_cases same : d = c
    · simp only [if_pos same]
      exact .reads rest
    · simp only [if_neg same]
      exact .recovers
  · exact .fails (closed_char kind closed) (closed_char kind closed')

theorem alike_one (matching : Matching R) (each : ∀ c, p c → isPlain c) :
    Alike Stop R R id (oneOf p) (oneOf p) := by
  intro s s' start
  rcases matching start with ⟨d, t, t', _, rfl, rfl, rest⟩ | ⟨closed, closed'⟩
  · unfold oneOf
    by_cases chosen : p d
    · simp only [if_pos chosen]
      exact .reads rest
    · simp only [if_neg chosen]
      exact .recovers
  · exact .fails (closed_one each closed) (closed_one each closed')

theorem alike_run (matching : Matching R) (each : ∀ c, p c → isPlain c) :
    Alike Stop R R id (run p) (run p) := by
  intro s s' start
  obtain ⟨same, behind⟩ := matching_run matching each start
  unfold run
  rw [same]
  exact .reads behind

theorem alike_run1 (matching : Matching R) (each : ∀ c, p c → isPlain c) :
    Alike Stop R R id (run1 p) (run1 p) := by
  intro s s' start
  obtain ⟨same, behind⟩ := matching_run matching each start
  unfold run1
  rw [same]
  split
  · exact .recovers
  · exact .reads behind

theorem text_found {word : Text} (matching : Matching R) (all : ∀ c ∈ word, isPlain c)
    (start : R s s') :
    (∃ t t', Text.after? word s = some t ∧ Text.after? word s' = some t' ∧ R t t') ∨
      Text.after? word s = none ∧ Text.after? word s' = none := by
  induction word generalizing s s' with
  | nil => exact .inl ⟨s, s', rfl, rfl, start⟩
  | cons w word ih =>
    obtain ⟨first, others⟩ := List.forall_mem_cons.mp all
    rcases matching start with ⟨c, t, t', _, rfl, rfl, rest⟩ | ⟨closed, closed'⟩
    · by_cases same : w = c
      · simp only [Text.after?, if_pos same]
        exact ih others rest
      · simp only [Text.after?, if_neg same]
        exact .inr ⟨trivial, trivial⟩
    · have missing {u : Text} (closed : Closed u) : Text.after? (w :: word) u = none := by
        cases u with
        | nil => rfl
        | cons d u =>
          rw [Text.after?, if_neg]
          rintro rfl
          rw [closed w rfl] at first
          cases first
      exact .inr ⟨missing closed, missing closed'⟩

theorem alike_text {word : Text} (matching : Matching R) (all : ∀ c ∈ word, isPlain c) :
    Alike Stop R R id (text word) (text word) := by
  intro s s' start
  unfold text
  rcases text_found matching all start with ⟨t, t', here, there, rest⟩ | ⟨here, there⟩
  · rw [here, there]
    exact .reads rest
  · rw [here, there]
    exact .recovers

theorem letters_found {word : Text} (matching : Matching R)
    (letters : word.all fun c => c.toLower.isAlpha) (start : R s s') :
    (∃ t t', Text.afterNoCase? word s = some t ∧ Text.afterNoCase? word s' = some t' ∧ R t t') ∨
      Text.afterNoCase? word s = none ∧ Text.afterNoCase? word s' = none := by
  induction word generalizing s s' with
  | nil => exact .inl ⟨s, s', rfl, rfl, start⟩
  | cons w word ih =>
    simp only [List.all_cons, Bool.and_eq_true] at letters
    rcases matching start with ⟨c, t, t', _, rfl, rfl, rest⟩ | ⟨closed, closed'⟩
    · by_cases same : w.toLower = c.toLower
      · simp only [Text.afterNoCase?, if_pos same]
        exact ih letters.2 rest
      · simp only [Text.afterNoCase?, if_neg same]
        exact .inr ⟨trivial, trivial⟩
    · have missing {u : Text} (closed : Closed u) : Text.afterNoCase? (w :: word) u = none := by
        cases u with
        | nil => rfl
        | cons d u =>
          rw [Text.afterNoCase?, if_neg]
          intro same
          have special := closed d rfl
          rw [letter_plain (letter_of_lower same.symm letters.1)] at special
          cases special
      exact .inr ⟨missing closed, missing closed'⟩

theorem keyword_closed {word t : Text} (found : Text.afterNoCase? word s = some t)
    (closed : Closed t) : keyword word s = .ok ((), t) := by
  have each (c : Char) (kind : (isNameChar c || c == ':') = true) : isPlain c := by
    rcases Bool.or_eq_true_iff.mp kind with name | same
    · exact name_plain c name
    · rw [beq_iff_eq.mp same]
      decide
  unfold keyword
  rw [found]
  cases t with
  | nil => rfl
  | cons c t =>
    have stops := closed_stops each closed c rfl
    simp only [stops]
    rfl

theorem alike_keyword {word : Text} (matching : Matching R) (letters : isWord word) :
    Alike Stop R R id (keyword word) (keyword word) := by
  intro s s' start
  simp only [isWord, Bool.and_eq_true] at letters
  rcases letters_found matching letters.2 start with ⟨t, t', here, there, rest⟩ | ⟨here, there⟩
  · rcases matching rest with ⟨c, u, u', _, rfl, rfl, _⟩ | ⟨closed, closed'⟩
    · unfold keyword
      rw [here, there]
      dsimp only
      split
      · exact .recovers
      · exact .reads rest
    · rw [keyword_closed here closed, keyword_closed there closed']
      exact .reads rest
  · unfold keyword
    rw [here, there]
    exact .recovers

end

end TripleTable.Sparql
