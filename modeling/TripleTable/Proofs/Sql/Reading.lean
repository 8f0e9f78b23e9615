import TripleTable.Sql.Parser
set_option autoImplicit false

/-!
How readers run, and what they do with tokens that they look for and do not find.
-/
namespace TripleTable.Sql

-- What may come next is known by the first token alone. The readers that look for an optional
-- word or symbol are all refused by such a fact, each by one lemma.
def Next (symbols : List String) (word : String → Bool) : List Token → Prop
  | [] => True
  | .symbol symbol :: _ => symbol ∈ symbols
  | .word name :: _ => word name.keyword
  | _ => False

namespace Parser

section
variable {α β : Type}

theorem bind_run (p : Parser α) (f : α → Parser β) (tokens : List Token) :
    (p >>= f) tokens = (p tokens).bind fun found => f found.1 found.2 := rfl

theorem pure_run (value : α) (tokens : List Token) :
    (pure value : Parser α) tokens = some (value, tokens) := rfl

-- One step of a long reader. Rewriting with the step before it looks at what comes behind keeps
-- the rest of the reader closed until its turn.
theorem bind_step {p : Parser α} {f : α → Parser β} {tokens rest : List Token} {value : α}
    (reads : p tokens = some (value, rest)) : (p >>= f) tokens = f value rest := by
  rw [bind_run, reads, Option.bind_some]

theorem failure_run (tokens : List Token) : (failure : Parser α) tokens = none := rfl

theorem attempt_none {p : Parser α} {tokens : List Token} (fails : p tokens = none) :
    attempt p tokens = some (none, tokens) := by
  rw [attempt, fails]

theorem keyword_read {name : Ident} {word : String} (same : name.keyword = word)
    (rest : List Token) : keyword? word (.word name :: rest) = some (true, rest) := by
  rw [keyword?, if_pos same]

theorem symbol_read (symbol : String) (rest : List Token) :
    symbol? symbol (.symbol symbol :: rest) = some (true, rest) := by
  rw [symbol?, if_pos rfl]

theorem one_of_none {words : List String} {tokens : List Token}
    (absent : ∀ word ∈ words, keyword? word tokens = some (false, tokens)) :
    oneOf? words tokens = some (none, tokens) := by
  induction words with
  | nil => rfl
  | cons first rest ih =>
    obtain ⟨here, later⟩ := List.forall_mem_cons.mp absent
    simp [oneOf?, bind_run, here, ih later]

theorem many_none {p : Parser (Option α)} {tokens : List Token}
    (absent : p tokens = some (none, tokens)) : many p tokens = some ([], tokens) := by
  simp [many, repeatUpTo, bind_run, pure_run, absent]

end

section
variable {symbols : List String} {word : String → Bool} {tokens : List Token}

theorem next_among {others keywords more : List String}
    (next : Next symbols keywords.contains tokens) (wider : symbols ⊆ others)
    (longer : keywords ⊆ more) : Next others more.contains tokens := by
  match tokens, next with
  | [], _ => trivial
  | .symbol symbol :: _, (next : symbol ∈ symbols) => exact wider next
  | .word name :: _, (next : keywords.contains name.keyword = true) =>
    have member : name.keyword ∈ more := longer (List.contains_iff_mem.mp next)
    exact List.contains_iff_mem.mpr member

theorem next_named {name : Ident} {keyword : String} {keywords : List String}
    (same : name.keyword = keyword) (member : keyword ∈ keywords) (rest : List Token) :
    Next symbols keywords.contains (.word name :: rest) := by
  rw [← same] at member
  exact List.contains_iff_mem.mpr member

theorem next_keyword (next : Next symbols word tokens) (keyword : String)
    (other : word keyword = false) : keyword? keyword tokens = some (false, tokens) := by
  match tokens, next with
  | [], _ => rfl
  | .symbol _ :: _, _ => rfl
  | .word name :: _, (next : word name.keyword = true) =>
    have different : name.keyword ≠ keyword := by
      rintro rfl
      rw [next] at other
      cases other
    rw [keyword?, if_neg different]

theorem next_symbol (next : Next symbols word tokens) (symbol : String)
    (other : symbol ∉ symbols) : symbol? symbol tokens = some (false, tokens) := by
  match tokens, next with
  | [], _ => rfl
  | .symbol first :: _, (next : first ∈ symbols) =>
    have different : first ≠ symbol := by
      rintro rfl
      exact other next
    rw [symbol?, if_neg different]
  | .word _ :: _, _ => rfl

theorem next_sees_symbol (next : Next symbols word tokens) (symbol : String)
    (other : symbol ∉ symbols) : seesSymbol symbol tokens = some (false, tokens) := by
  match tokens, next with
  | [], _ => rfl
  | .symbol first :: _, (next : first ∈ symbols) =>
    have different : first ≠ symbol := by
      rintro rfl
      exact other next
    simp [seesSymbol, sees, different]
  | .word _ :: _, _ => rfl

theorem next_sees_keyword (next : Next symbols word tokens) {keywords : List String}
    (others : ∀ keyword ∈ keywords, word keyword = false) :
    seesKeyword keywords tokens = some (false, tokens) := by
  match tokens, next with
  | [], _ => rfl
  | .symbol _ :: _, _ => rfl
  | .word name :: _, (next : word name.keyword = true) =>
    have absent : name.keyword ∉ keywords := by
      intro member
      rw [others _ member] at next
      cases next
    simp [seesKeyword, sees, absent]

theorem next_one_of (next : Next symbols word tokens) {keywords : List String}
    (others : ∀ keyword ∈ keywords, word keyword = false) :
    oneOf? keywords tokens = some (none, tokens) :=
  one_of_none fun keyword member => next_keyword next keyword (others keyword member)

theorem next_keywords (next : Next symbols word tokens) (first : String) (more : List String)
    (other : word first = false) : keywords? (first :: more) tokens = some (false, tokens) := by
  have fails : readKeywords (first :: more) tokens = none := by
    simp [readKeywords, Parser.keyword, bind_run, failure_run, next_keyword next first other]
  simp [keywords?, bind_run, pure_run, attempt_none fails]

theorem next_after (next : Next symbols word tokens) {α : Type} (p : Parser α) (keyword : String)
    (other : word keyword = false) : after? keyword p tokens = some (none, tokens) := by
  simp [after?, bind_run, pure_run, next_keyword next keyword other]

end

section
variable {α β : Type} {made : β → α} {written : β → List Token} {stop : List Token → Prop}
  {values : List β} {rest : List Token}

theorem items_up_to_read {item : Parser α} {separator : String}
    (reads : ∀ value ∈ values, ∀ rest, stop rest →
      item (written value ++ rest) = some (made value, rest))
    (inner : ∀ rest, stop (.symbol separator :: rest)) (last : stop rest)
    (ends : symbol? separator rest = some (false, rest)) (inhabited : values ≠ []) {n : Nat}
    (enough : values.length ≤ n) :
    itemsUpTo separator item n
      ([Token.symbol separator].intercalate (values.map written) ++ rest) =
        some (values.map made, rest) := by
  induction values generalizing n with
  | nil => exact absurd rfl inhabited
  | cons value values ih =>
    obtain ⟨here, later⟩ := List.forall_mem_cons.mp reads
    cases n with
    | zero => simp at enough
    | succ n =>
      cases values with
      | nil =>
        have only := here rest last
        simp [itemsUpTo, bind_run, pure_run, only, ends]
      | cons second values =>
        have others := ih later (by simp) (Nat.le_of_succ_le_succ enough)
        have first := here _ (inner ([Token.symbol separator].intercalate
          ((second :: values).map written) ++ rest))
        simp only [List.map_cons, List.intercalate_cons_cons, List.append_assoc,
          List.cons_append, List.nil_append] at first others ⊢
        simp only [itemsUpTo, bind_run, pure_run, first, symbol_read, others, Option.bind_some,
          if_true]

theorem intercalate_length (mark : Token) (pieces : List (List Token)) :
    pieces.length ≤ ([mark].intercalate pieces).length + 1 := by
  induction pieces with
  | nil => simp
  | cons piece pieces ih =>
    cases pieces with
    | nil => simp
    | cons second pieces =>
      simp only [List.intercalate_cons_cons, List.length_append, List.length_cons,
        List.length_nil] at ih ⊢
      omega

theorem items_read {item : Parser α} {separator : String}
    (reads : ∀ value ∈ values, ∀ rest, stop rest →
      item (written value ++ rest) = some (made value, rest))
    (inner : ∀ rest, stop (.symbol separator :: rest)) (last : stop rest)
    (ends : symbol? separator rest = some (false, rest)) (inhabited : values ≠ []) :
    items separator item
      ([Token.symbol separator].intercalate (values.map written) ++ rest) =
        some (values.map made, rest) := by
  have enough := intercalate_length (.symbol separator) (values.map written)
  rw [List.length_map] at enough
  refine items_up_to_read reads inner last ends inhabited ?_
  rw [List.length_append]
  omega

theorem repeat_up_to_read {p : Parser (Option α)}
    (reads : ∀ value ∈ values, ∀ rest, stop rest →
      p (written value ++ rest) = some (some (made value), rest))
    (leads : ∀ value ∈ values, ∀ rest, stop (written value ++ rest)) (last : stop rest)
    (ends : p rest = some (none, rest)) {n : Nat} (enough : values.length < n) :
    repeatUpTo p n (values.flatMap written ++ rest) = some (values.map made, rest) ∧
      stop (values.flatMap written ++ rest) := by
  induction values generalizing n with
  | nil =>
    obtain ⟨n, rfl⟩ := Nat.exists_eq_succ_of_ne_zero (Nat.ne_of_gt enough)
    exact ⟨by simp [repeatUpTo, bind_run, pure_run, ends], last⟩
  | cons value values ih =>
    obtain ⟨read, later_read⟩ := List.forall_mem_cons.mp reads
    obtain ⟨lead, later_lead⟩ := List.forall_mem_cons.mp leads
    obtain ⟨n, rfl⟩ := Nat.exists_eq_succ_of_ne_zero (Nat.ne_of_gt (Nat.zero_lt_of_lt enough))
    obtain ⟨others, stops⟩ := ih later_read later_lead (Nat.lt_of_succ_lt_succ enough)
    rw [List.flatMap_cons, List.append_assoc]
    refine ⟨?_, lead _⟩
    simp only [repeatUpTo, bind_run, pure_run, read _ stops, others, Option.bind_some,
      List.map_cons]

theorem many_read {p : Parser (Option α)}
    (reads : ∀ value ∈ values, ∀ rest, stop rest →
      p (written value ++ rest) = some (some (made value), rest))
    (leads : ∀ value ∈ values, ∀ rest, stop (written value ++ rest)) (last : stop rest)
    (ends : p rest = some (none, rest)) (inhabited : ∀ value ∈ values, written value ≠ []) :
    many p (values.flatMap written ++ rest) = some (values.map made, rest) := by
  have size : values.length ≤ (values.flatMap written).length := by
    clear reads leads
    induction values with
    | nil => exact Nat.le_refl _
    | cons value values ih =>
      obtain ⟨here, later⟩ := List.forall_mem_cons.mp inhabited
      have shorter := ih later
      have first := List.length_pos_iff.mpr here
      rw [List.flatMap_cons, List.length_append, List.length_cons]
      omega
  refine (repeat_up_to_read reads leads last ends ?_).1
  rw [List.length_append]
  omega

end
end Parser
end TripleTable.Sql
