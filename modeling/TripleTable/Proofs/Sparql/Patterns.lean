import TripleTable.Proofs.Sparql.Tokens
set_option autoImplicit false

/-!
Sentences and groups: their tokens are read back, token by token, up to the token behind them.
-/
namespace TripleTable.Sparql
open Reader

def ReadsTo {α : Type} (r : Reader α) (s : Text) (value : α) (more : List Text) : Prop :=
  ∃ rest, r s = .ok (value, rest) ∧ Begins more rest ∧ rest.length < s.length

-- There is a next token, and it begins with none of the marks.
def GoesOn (marks : List Char) (tokens : List Text) : Prop :=
  ∃ c rest more, tokens = (c :: rest) :: more ∧ isSpace c = false ∧ c ∉ marks

section
variable {α β : Type} {s rest : Text} {marks : List Char} {more : List Text}

theorem goes_on_fewer {fewer : List Char} (goes_on : GoesOn marks more) (sub : fewer ⊆ marks) :
    GoesOn fewer more := by
  obtain ⟨c, rest, others, rfl, solid, absent⟩ := goes_on
  exact ⟨c, rest, others, rfl, solid, fun member => absent (sub member)⟩

theorem goes_on_mark {mark : Text} {c : Char} (same : mark = [c]) (solid : isSpace c = false)
    (absent : c ∉ marks) : GoesOn marks (mark :: more) :=
  ⟨c, [], more, by rw [same], solid, absent⟩

theorem mark_absent {c : Char} (goes_on : GoesOn marks more) (mark : c ∈ marks)
    (begins : Begins more s) : Fails (spaced (char c)) s := by
  obtain ⟨d, rest, others, rfl, solid, absent⟩ := goes_on
  have other : d ≠ c := by
    rintro rfl
    exact absent mark
  exact spaced_refused (mark_refused solid other) begins

theorem behind_none {separator : Reader β} {item : Reader α} (n : Nat)
    (fails : Fails separator s) : behindUpTo separator item n s = .ok ([], s) := by
  cases n with
  | zero => rfl
  | succ n =>
    obtain ⟨trace, halts⟩ := seq_right_fails (q := item) fails
    simp only [behindUpTo, halts]

theorem behind_more {separator : Reader β} {item : Reader α} {n : Nat} {mark : β} {value : α}
    {values : List α} {t u : Text} (separated : separator s = .ok (mark, t))
    (read : item t = .ok (value, u)) (others : behindUpTo separator item n u = .ok (values, rest)) :
    behindUpTo separator item (n + 1) s = .ok (value :: values, rest) := by
  have step : (separator *> item) s = .ok (value, u) := by rw [seq_right_ok separated, read]
  simp only [behindUpTo, step]
  rw [bind_ok others, pure_run]

end

/-! ### Objects, verbs and sentences -/

section
variable {more : List Text}

theorem comma_solid : isSpace ',' = false := by decide

theorem semicolon_solid : isSpace ';' = false := by decide

theorem further_objects_read {objects : List Term} {tokens : List Text}
    (spelled : ObjectsSpelled objects tokens) (goes_on : GoesOn [','] more) {n : Nat} {s : Text}
    (begins : Begins ([','] :: (tokens ++ more)) s) (enough : s.length < n) :
    ∃ rest, behindUpTo (spaced (char ',')) (spaced objectTerm) n s = .ok (objects, rest) ∧
      Begins more rest ∧ rest.length < s.length := by
  induction spelled generalizing n s with
  | last object =>
    cases n with
    | zero => omega
    | succ n =>
      obtain ⟨t, comma, begins, _⟩ := spaced_read (mark_read comma_solid) begins
      obtain ⟨u, read, begins, _⟩ := spaced_read (object_read object) begins
      have no_comma := mark_absent goes_on (List.mem_singleton_self ',') begins
      exact ⟨u, behind_more comma read (behind_none n no_comma), begins, by omega⟩
  | more object _ ih =>
    cases n with
    | zero => omega
    | succ n =>
      obtain ⟨t, comma, begins, _⟩ := spaced_read (mark_read comma_solid) begins
      obtain ⟨u, read, begins, _⟩ := spaced_read (object_read object) begins
      obtain ⟨rest, others, begins, _⟩ := ih begins (n := n) (by omega)
      exact ⟨rest, behind_more comma read others, begins, by omega⟩

theorem objects_read {objects : List Term} {tokens : List Text}
    (spelled : ObjectsSpelled objects tokens) (goes_on : GoesOn [','] more) {s : Text}
    (begins : Begins (tokens ++ more) s) :
    ReadsTo (separated (spaced (char ',')) (spaced objectTerm)) s objects more := by
  cases spelled with
  | last object =>
    obtain ⟨t, first, begins, shorter⟩ := spaced_read (object_read object) begins
    have no_comma := mark_absent goes_on (List.mem_singleton_self ',') begins
    refine ⟨t, ?_, begins, shorter⟩
    rw [separated, bind_ok first, bind_ok (behind_none _ no_comma), pure_run]
  | more object spelled =>
    obtain ⟨t, first, begins, _⟩ := spaced_read (object_read object) begins
    obtain ⟨rest, others, begins, _⟩ :=
      further_objects_read spelled goes_on begins (Nat.lt_succ_self t.length)
    refine ⟨rest, ?_, begins, by omega⟩
    rw [separated, bind_ok first, bind_ok others, pure_run]

theorem verb_objects_read {pairs : List VerbObject} {tokens : List Text}
    (spelled : VerbObjectsSpelled pairs tokens) (goes_on : GoesOn [','] more) {s : Text}
    (begins : Begins (tokens ++ more) s) : ReadsTo verbObjects s pairs more := by
  cases spelled with
  | mk verb objects =>
    obtain ⟨t, first, begins, _⟩ := spaced_read (verb_read verb) begins
    obtain ⟨rest, others, begins, _⟩ := objects_read objects goes_on begins
    refine ⟨rest, ?_, begins, by omega⟩
    rw [verbObjects, bind_ok first, bind_ok (within_ok _ (commit_ok others)), pure_run]

-- What may stand behind a semicolon that has nothing behind it.
def NoVerb (more : List Text) : Prop := ∀ s, Begins more s → Fails verbObjects s

theorem refused_no_verb {token : Text} (refuses : Refuses verb token) :
    NoVerb (token :: more) := fun _ begins => bind_fails (spaced_refused refuses begins)

theorem last_behind {tokens : List Text} {last : Text} (ends : tokens.getLast? = some last)
    (token : Text) (front : List Text) : (token :: (front ++ tokens)).getLast? = some last := by
  rw [List.getLast?_cons, List.getLast?_append, ends]
  rfl

theorem further_goes_on {pairs : List VerbObject} {tokens : List Text}
    (spelled : FurtherSpelled pairs tokens) (goes_on : GoesOn [','] more) :
    GoesOn [','] (tokens ++ more) := by
  cases spelled with
  | nil => exact goes_on
  | idle spelled => exact goes_on_mark rfl semicolon_solid (by decide)
  | next first spelled => exact goes_on_mark rfl semicolon_solid (by decide)

theorem further_read {pairs : List VerbObject} {tokens : List Text}
    (spelled : FurtherSpelled pairs tokens) (goes_on : GoesOn [',', ';'] more)
    (ends : tokens.getLast? = some [';'] → NoVerb more) {n : Nat} {s : Text}
    (begins : Begins (tokens ++ more) s) (enough : s.length < n) :
    ∃ rest, verbObjectsBehindUpTo n s = .ok (pairs, rest) ∧ Begins more rest ∧
      rest.length ≤ s.length := by
  induction spelled generalizing n s with
  | nil =>
    cases n with
    | zero => omega
    | succ n =>
      obtain ⟨trace, halts⟩ := mark_absent (c := ';') goes_on (by simp) begins
      exact ⟨s, by simp only [verbObjectsBehindUpTo, halts], begins, le_rfl⟩
  | @idle pairs tokens spelled ih =>
    cases n with
    | zero => omega
    | succ n =>
      obtain ⟨t, semicolon, begins, _⟩ := spaced_read (mark_read semicolon_solid) begins
      have no_verb : NoVerb (tokens ++ more) := by
        cases spelled with
        | nil => exact ends rfl
        | idle spelled =>
          exact refused_no_verb (verb_refuses_symbol semicolon_solid (by decide) (by decide))
        | next first spelled =>
          exact refused_no_verb (verb_refuses_symbol semicolon_solid (by decide) (by decide))
      obtain ⟨trace, halts⟩ := no_verb t begins
      have later : tokens.getLast? = some [';'] → NoVerb more :=
        fun last => ends (last_behind last [';'] [])
      obtain ⟨rest, others, begins, _⟩ := ih later (n := n) begins (by omega)
      exact ⟨rest, by simp only [verbObjectsBehindUpTo, semicolon, halts, others], begins, by omega⟩
  | @next first front pairs tokens head spelled ih =>
    cases n with
    | zero => omega
    | succ n =>
      rw [List.cons_append, List.append_assoc] at begins
      obtain ⟨t, semicolon, begins, _⟩ := spaced_read (mark_read semicolon_solid) begins
      have stops := further_goes_on spelled (goes_on_fewer goes_on (by simp))
      obtain ⟨u, read, begins, _⟩ := verb_objects_read head stops begins
      have later : tokens.getLast? = some [';'] → NoVerb more :=
        fun last => ends (last_behind last [';'] front)
      obtain ⟨rest, others, begins, _⟩ := ih later (n := n) begins (by omega)
      refine ⟨rest, ?_, begins, by omega⟩
      simp only [verbObjectsBehindUpTo, semicolon, read]
      rw [bind_ok others, pure_run]

theorem sentence_read {block : List TriplePattern} {tokens : List Text}
    (spelled : SentenceSpelled block tokens) (goes_on : GoesOn [',', ';'] more)
    (ends : tokens.getLast? = some [';'] → NoVerb more) {s : Text}
    (begins : Begins (tokens ++ more) s) : ReadsTo sameSubject s block more := by
  cases spelled with
  | @mk subject token first front pairs tokens name head further =>
    rw [List.cons_append, List.append_assoc] at begins
    obtain ⟨t, subject_read, begins, _⟩ := spaced_read (name_read name) begins
    have stops := further_goes_on further (goes_on_fewer goes_on (by simp))
    obtain ⟨u, first_read, begins, _⟩ := verb_objects_read head stops begins
    have later : tokens.getLast? = some [';'] → NoVerb more :=
      fun last => ends (last_behind last token front)
    obtain ⟨rest, others, begins, _⟩ :=
      further_read further goes_on later begins (Nat.lt_succ_self u.length)
    have list : predicateObjectList t = .ok (first ++ pairs, rest) := by
      rw [predicateObjectList, bind_ok first_read, bind_ok others, pure_run]
    refine ⟨rest, ?_, begins, by omega⟩
    rw [sameSubject, bind_ok (within_ok _ subject_read), bind_ok (within_ok _ (commit_ok list)),
      pure_run]

end
/-! ### Groups -/

theorem unsupported_none {s : Text}
    (fails : ∀ word, isWord word → word.head?.map Char.toLower ≠ some 'm' →
      Fails (keyword word) s) : unsupported? s = none := by
  have none : ∀ construct ∈ unsupported, (keyword construct.1 s).isOk = false := by
    have words : ∀ construct ∈ unsupported, isWord construct.1 ∧
        construct.1.head?.map Char.toLower ≠ some 'm' := by decide
    intro construct member
    obtain ⟨letters, apart⟩ := words construct member
    obtain ⟨trace, halts⟩ := fails construct.1 letters apart
    rw [halts]
    rfl
  rw [unsupported?, Option.map_eq_none_iff, List.find?_eq_none]
  intro construct member
  simp [none construct member]

theorem symbol_supported {c : Char} (symbol : c.isAlpha = false) (s : Text) :
    unsupported? (c :: s) = none :=
  unsupported_none fun _ letters _ => keyword_fails_symbol letters symbol s

section
variable {n : Nat} {s rest : Text}

theorem elements_close (here : s.dropWhile isSpace = '\x7d' :: rest) :
    elementsUpTo (n + 1) s = .ok ([], rest) := by
  simp [elementsUpTo, here]

theorem elements_period (here : s.dropWhile isSpace = '.' :: rest) :
    elementsUpTo (n + 1) s = elementsUpTo n rest := by
  have supported := symbol_supported (c := '.') (by decide) rest
  simp [elementsUpTo, here, supported]

variable {c : Char} {tail t u v : Text} {inner others : Group}

theorem elements_minus (here : s.dropWhile isSpace = c :: tail) (other : c ≠ '\x7d' ∧ c ≠ '.')
    (supported : unsupported? (c :: tail) = none)
    (word : spaced (keyword "MINUS") (c :: tail) = .ok ((), t))
    (opened : openBrace t = .ok ((), u)) (inside : elementsUpTo n u = .ok (inner, v))
    (behind : elementsUpTo n v = .ok (others, rest)) :
    elementsUpTo (n + 1) s = .ok (.minus inner :: others, rest) := by
  have body : (do openBrace; elementsUpTo n) t = .ok (inner, v) := by rw [bind_ok opened, inside]
  simp only [elementsUpTo, here, other, supported, word, if_false]
  rw [bind_ok (within_ok _ (commit_ok body)), bind_ok behind, pure_run]

theorem brace_not_minus (s : Text) : Fails (spaced (keyword "MINUS")) ('\x7b' :: s) :=
  spaced_fails (keyword_fails_symbol (by decide) (by decide) s)

theorem elements_group (here : s.dropWhile isSpace = '\x7b' :: tail)
    (opened : openBrace ('\x7b' :: tail) = .ok ((), u))
    (inside : elementsUpTo n u = .ok (inner, v))
    (behind : elementsUpTo n v = .ok (others, rest)) :
    elementsUpTo (n + 1) s = .ok (.group inner :: others, rest) := by
  have body : (do openBrace; elementsUpTo n) ('\x7b' :: tail) = .ok (inner, v) := by
    rw [bind_ok opened, inside]
  have supported := symbol_supported (c := '\x7b') (by decide) tail
  obtain ⟨trace, no_minus⟩ := brace_not_minus tail
  simp only [elementsUpTo, here, supported, no_minus, if_true]
  rw [if_neg (by decide), if_neg (by decide), bind_ok body, bind_ok behind, pure_run]

theorem elements_sentence {block : List TriplePattern} (here : s.dropWhile isSpace = c :: tail)
    (other : c ≠ '\x7d' ∧ c ≠ '.' ∧ c ≠ '\x7b') (supported : unsupported? (c :: tail) = none)
    (no_minus : Fails (spaced (keyword "MINUS")) (c :: tail))
    (sentence : sameSubject (c :: tail) = .ok (block, u))
    (behind : elementsUpTo n u = .ok (others, rest)) :
    elementsUpTo (n + 1) s = .ok (consBlock block others, rest) := by
  obtain ⟨trace, halts⟩ := no_minus
  simp only [elementsUpTo, here, other, supported, halts, if_false]
  rw [bind_ok (within_ok _ (commit_ok sentence)), bind_ok behind, pure_run]

end

theorem close_solid : isSpace '\x7d' = false := by decide

theorem open_solid : isSpace '\x7b' = false := by decide

theorem SentenceSpelled.starts {block : List TriplePattern} {tokens : List Text}
    (spelled : SentenceSpelled block tokens) :
    ∃ (subject : Term) (token : Text) (more : List Text), tokens = token :: more ∧
      subject.NameSpelled token := by
  cases spelled with
  | mk name head further => exact ⟨_, _, _, rfl, name⟩

theorem name_goes_on {subject : Term} {token : Text} {more : List Text}
    (name : subject.NameSpelled token) : GoesOn [',', ';'] (token :: more) := by
  obtain ⟨c, rest, rfl, opens⟩ := name.head
  have closed : ∀ d ∈ [',', ';'], opensName d = false := each_char (by decide)
  exact ⟨c, rest, more, rfl, opens_name_solid opens, fun member =>
    opens_name_other opens (closed c member) rfl⟩

theorem keyword_goes_on {word token : Text} {marks : List Char} {more : List Text}
    (letters : isWord word) (same : IsKeyword word token)
    (symbols : ∀ d ∈ marks, d.isAlpha = false) : GoesOn marks (token :: more) := by
  obtain ⟨c, rest, _, _, rfl, _, _, letter⟩ := keyword_head letters same
  exact ⟨c, rest, more, rfl, letter_not_space letter, fun member =>
    letter_other letter (symbols c member) rfl⟩

theorem group_goes_on {group : Group} {tokens more : List Text}
    (spelled : GroupSpelled group tokens) : GoesOn [',', ';'] (tokens ++ ['\x7d'] :: more) := by
  cases spelled with
  | nil => exact goes_on_mark rfl close_solid (by decide)
  | period spelled => exact goes_on_mark rfl (by decide) (by decide)
  | last sentence _ _ _ =>
    obtain ⟨_, _, _, rfl, name⟩ := sentence.starts
    exact name_goes_on name
  | more sentence _ _ =>
    obtain ⟨_, _, _, rfl, name⟩ := sentence.starts
    exact name_goes_on name
  | group _ _ => exact goes_on_mark rfl open_solid (by decide)
  | minus word _ _ => exact keyword_goes_on (by decide) word (each_char (by decide))

theorem interrupted_no_verb {sentence tokens more : List Text}
    (interrupts : Interrupts sentence tokens) (last : sentence.getLast? = some [';']) :
    NoVerb (tokens ++ ['\x7d'] :: more) := by
  cases tokens with
  | nil => exact refused_no_verb (verb_refuses_symbol close_solid (by decide) (by decide))
  | cons token tokens =>
    rcases interrupts last token rfl with rfl | rfl | word
    · exact refused_no_verb (verb_refuses_symbol (by decide) (by decide) (by decide))
    · exact refused_no_verb (verb_refuses_symbol open_solid (by decide) (by decide))
    · exact refused_no_verb (verb_refuses_keyword (by decide) (by decide) word)

-- What reading the elements of a group up to its closing brace comes to.
def ElementsRead (group : Group) (tokens : List Text) : Prop :=
  ∀ n s more, Begins (tokens ++ ['\x7d'] :: more) s → s.length < n →
    ReadsTo (elementsUpTo n) s group more

theorem sentence_elements_read {block : List TriplePattern} {sentence tokens : List Text}
    {group : Group} (spelled : SentenceSpelled block sentence) (body : GroupSpelled group tokens)
    (interrupts : Interrupts sentence tokens) (behind : ElementsRead group tokens) :
    ElementsRead (consBlock block group) (sentence ++ tokens) := by
  intro n s more begins enough
  rw [List.append_assoc] at begins
  have goes_on : GoesOn [',', ';'] (tokens ++ ['\x7d'] :: more) := group_goes_on body
  have read := sentence_read spelled goes_on (interrupted_no_verb interrupts)
    (begins_dropped begins)
  obtain ⟨subject, token, tail, rfl, name⟩ := spelled.starts
  obtain ⟨r, here, _, _⟩ := begins_token name.solid begins
  have no_keyword : ∀ word, isWord word → Fails (keyword word) (token ++ r) :=
    fun word letters => name.not_keyword letters r
  obtain ⟨c, rest, rfl, opens⟩ := name.head
  rw [here] at read
  obtain ⟨t, sentence, begins, _⟩ := read
  have shorter := (List.dropWhile_suffix isSpace (l := s)).length_le
  rw [here] at shorter
  cases n with
  | zero => omega
  | succ n =>
    obtain ⟨u, others, begins, _⟩ := behind n t more begins (by omega)
    have no_minus : Fails (spaced (keyword "MINUS")) (c :: (rest ++ r)) := by
      apply spaced_fails
      rw [List.dropWhile_cons_of_neg (by simp [opens_name_solid opens])]
      exact no_keyword "MINUS" (by decide)
    have other : c ≠ '\x7d' ∧ c ≠ '.' ∧ c ≠ '\x7b' :=
      ⟨opens_name_other opens (by decide), opens_name_other opens (by decide),
        opens_name_other opens (by decide)⟩
    have supported : unsupported? (c :: (rest ++ r)) = none :=
      unsupported_none fun word letters _ => no_keyword word letters
    exact ⟨u, elements_sentence here other supported no_minus sentence others, begins, by omega⟩

theorem opened_read {s : Text} {more : List Text} (begins : Begins (['\x7b'] :: more) s) :
    ReadsTo openBrace s () more := spaced_read (mark_read open_solid) begins

theorem minus_elements_read {word : Text} {inner others : Group} {front tokens : List Text}
    (same : IsKeyword "MINUS" word) (inside : ElementsRead inner front)
    (behind : ElementsRead others tokens) :
    ElementsRead (.minus inner :: others) (word :: ['\x7b'] :: (front ++ ['\x7d'] :: tokens)) := by
  intro n s more begins enough
  rw [List.cons_append, List.cons_append, List.append_assoc, List.cons_append] at begins
  have reads := keyword_read (by decide) same
  obtain ⟨c, tail, _, _, rfl, _, _, letter⟩ := keyword_head (by decide) same
  obtain ⟨r, here, _, _⟩ := begins_token reads.solid begins
  obtain ⟨t, read, begins, _⟩ := spaced_read reads (begins_dropped begins)
  have shorter := (List.dropWhile_suffix isSpace (l := s)).length_le
  cases n with
  | zero => omega
  | succ n =>
    obtain ⟨u, opened, begins, _⟩ := opened_read begins
    obtain ⟨v, body, begins, _⟩ := inside n u _ begins (by omega)
    obtain ⟨rest, others, begins, _⟩ := behind n v more begins (by omega)
    have other : c ≠ '\x7d' ∧ c ≠ '.' :=
      ⟨letter_other letter (by decide), letter_other letter (by decide)⟩
    have supported : unsupported? (c :: (tail ++ r)) = none := by
      apply unsupported_none
      intro word letters apart
      have first : word.head?.map Char.toLower ≠ ("MINUS" : Text).head?.map Char.toLower := apart
      exact keyword_fails_keyword letters (by decide) first same r
    rw [here] at read
    exact ⟨rest, elements_minus here other supported read opened body others, begins, by omega⟩

theorem group_elements_read {inner others : Group} {front tokens : List Text}
    (inside : ElementsRead inner front) (behind : ElementsRead others tokens) :
    ElementsRead (.group inner :: others) (['\x7b'] :: (front ++ ['\x7d'] :: tokens)) := by
  intro n s more begins enough
  rw [List.cons_append, List.append_assoc, List.cons_append] at begins
  obtain ⟨r, here, _, _⟩ := begins_token ⟨'\x7b', [], rfl, open_solid⟩ begins
  obtain ⟨t, opened, begins, _⟩ := opened_read (begins_dropped begins)
  have shorter := (List.dropWhile_suffix isSpace (l := s)).length_le
  cases n with
  | zero => omega
  | succ n =>
    obtain ⟨u, body, begins, _⟩ := inside n t _ begins (by omega)
    obtain ⟨rest, others, begins, _⟩ := behind n u more begins (by omega)
    rw [here] at opened
    exact ⟨rest, elements_group here opened body others, begins, by omega⟩

theorem cons_block_apart {block : List TriplePattern} {group : Group}
    (apart : ¬StartsWithTriples group) : consBlock block group = .triples block :: group := by
  match group, apart with
  | [], _ => rfl
  | .triples more :: rest, apart => exact absurd trivial apart
  | .group inner :: rest, _ => rfl
  | .minus inner :: rest, _ => rfl

theorem elements_read {group : Group} {tokens : List Text} (spelled : GroupSpelled group tokens) :
    ElementsRead group tokens := by
  induction spelled with
  | nil =>
    intro n s more begins enough
    obtain ⟨rest, here, follows, shorter⟩ := begins_token ⟨'\x7d', [], rfl, close_solid⟩ begins
    cases n with
    | zero => omega
    | succ n => exact ⟨rest, elements_close here, follows_begins follows, shorter⟩
  | period _ ih =>
    intro n s more begins enough
    obtain ⟨t, here, follows, _⟩ := begins_token ⟨'.', [], rfl, by decide⟩ begins
    cases n with
    | zero => omega
    | succ n =>
      obtain ⟨rest, read, begins, _⟩ := ih n t more (follows_begins follows) (by omega)
      exact ⟨rest, (elements_period here).trans read, begins, by omega⟩
  | last sentence body apart interrupts ih =>
    rw [← cons_block_apart apart]
    exact sentence_elements_read sentence body interrupts ih
  | more sentence body interrupts ih => exact sentence_elements_read sentence body interrupts ih
  | group _ _ inside behind => exact group_elements_read inside behind
  | minus word _ _ inside behind => exact minus_elements_read word inside behind

theorem group_read {pattern : Group} {tokens more : List Text}
    (spelled : GroupSpelled pattern tokens) {s : Text}
    (begins : Begins (['\x7b'] :: (tokens ++ ['\x7d'] :: more)) s) :
    ReadsTo group s pattern more := by
  obtain ⟨t, opened, begins, _⟩ := opened_read begins
  obtain ⟨rest, read, begins, _⟩ := elements_read spelled (s.length + 1) t more begins (by omega)
  exact ⟨rest, by rw [group, bind_ok opened, read], begins, by omega⟩

end TripleTable.Sparql
