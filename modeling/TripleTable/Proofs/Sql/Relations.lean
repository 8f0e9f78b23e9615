import TripleTable.Proofs.Sql.Conditions
import TripleTable.Proofs.Sql.Renaming
import TripleTable.Sql.Grammar.Relation
set_option autoImplicit false

/-!
How the grammar reads tables, with and without an alias, and the joins between them.
-/
namespace TripleTable.Sql

abbrev TableEnds : List Token → Prop := Next [","] ["ON", "JOIN", "WHERE"].contains

abbrev JoinEnds : List Token → Prop := Next [] ["JOIN", "WHERE"].contains

abbrev SourceEnds : List Token → Prop := Next [","] ["WHERE"].contains

namespace Grammar
open Sql.Parser

section
variable {rest : List Token}

theorem join_ends_table {tokens : List Token} (ends : JoinEnds tokens) : TableEnds tokens :=
  next_among ends (by simp) (by simp)

theorem join_ends_closes {tokens : List Token} (ends : JoinEnds tokens) : Closes tokens :=
  next_among ends (by simp) (by simp)

theorem source_ends_table {tokens : List Token} (ends : SourceEnds tokens) : TableEnds tokens :=
  next_among ends (by simp) (by simp)

theorem as_keyword {printed : Bool} : Ident.keyword ⟨spell printed "as", none⟩ = "AS" := by
  cases printed <;> decide

theorem table_alias {before : List Token} {name : Ident}
    (read : aliasName reservedAfterTable (before ++ rest) = some (some name, rest))
    (ends : TableEnds rest) : tableAlias (before ++ rest) = some (some ⟨name, []⟩, rest) := by
  have parenthesis := next_sees_symbol ends "(" (by decide)
  simp only [tableAlias, bind_run, pure_run, read, parenthesis, Option.bind_some,
    Bool.false_eq_true, if_false]

theorem alias_behind_as (printed : Bool) (reserved : List String) (short : Text)
    (rest : List Token) :
    aliasName reserved ([keywordToken printed "as", nameToken short] ++ rest) =
      some (some ⟨short, none⟩, rest) := by
  have as : ∀ tokens, keyword? "AS" (keywordToken printed "as" :: tokens) = some (true, tokens) :=
    keyword_read as_keyword
  have name : ident (nameToken short :: rest) = some (⟨short, none⟩, rest) := rfl
  simp only [List.cons_append, List.nil_append, aliasName, bind_run, pure_run, as, name,
    Option.bind_some, if_true]

theorem no_table_alias (ends : TableEnds rest) : tableAlias rest = some (none, rest) := by
  have as := next_keyword ends "AS" (by decide)
  have read : aliasName reservedAfterTable rest = some (none, rest) := by
    match rest, ends with
    | [], _ => rfl
    | .symbol _ :: _, _ => rfl
    | .word name :: _, (ends : ["ON", "JOIN", "WHERE"].contains name.keyword = true) =>
      have reserved : name.keyword ∈ reservedAfterTable := by
        have among : ∀ word ∈ ["ON", "JOIN", "WHERE"], word ∈ reservedAfterTable := by decide
        exact among _ (List.contains_iff_mem.mp ends)
      simp [aliasName, bind_run, pure_run, as, seesKeyword, sees, reserved]
  simp only [tableAlias, bind_run, pure_run, read, Option.bind_some]

section
variable {name : Name} {before : List Token} {a : Option Alias} {word : String → Bool}

theorem table_read (g : Grammar) (inhabited : name ≠ []) (next : Next [","] word (before ++ rest))
    (whole : word "PARTITION" = false) (aliased : tableAlias (before ++ rest) = some (a, rest))
    (ends : TableEnds rest) :
    g.table (name.tokens ++ (before ++ rest)) = some (⟨.table name [], a, []⟩, rest) := by
  have dotted := dotted_names inhabited (before ++ rest) (next_symbol next "." (by decide))
  have partitions := next_after next columnList "PARTITION" whole
  have parenthesis := next_sees_symbol next "(" (by decide)
  have hints : g.hints rest = some ([], rest) := by
    have absent := next_keyword ends "WITH" (by decide)
    have fails : attempt (do keyword "WITH"; symbol "(") rest = some (none, rest) := by
      refine attempt_none ?_
      simp only [bind_run, keyword, absent, Option.bind_some, Bool.false_eq_true, if_false,
        failure_run, Option.bind_none]
    simp only [Grammar.hints, bind_run, fails, Option.bind_some, pure_run]
  simp only [table, bind_run, pure_run, dotted, partitions, parenthesis, aliased, hints,
    Option.bind_some, Bool.false_eq_true, if_false, List.append_nil]

theorem name_begins (inhabited : name ≠ []) (free : ∀ first ∈ name.head?, isFree first.keyword)
    (rest : List Token) : Next [] isFree (name.tokens ++ rest) := by
  cases name with
  | nil => exact absurd rfl inhabited
  | cons first more =>
    rw [name_tokens_cons]
    exact free first rfl

theorem named_relation_read (g : Grammar) (inner : Parser Source) (inhabited : name ≠ [])
    (free : ∀ first ∈ name.head?, isFree first.keyword) (next : Next [","] word (before ++ rest))
    (whole : word "PARTITION" = false) (aliased : tableAlias (before ++ rest) = some (a, rest))
    (ends : TableEnds rest) :
    g.relation inner (name.tokens ++ (before ++ rest)) =
      some (⟨.table name [], a, []⟩, rest) := by
  have begins := name_begins inhabited free (before ++ rest)
  have lateral := next_keyword begins "LATERAL" (by decide)
  have table := next_keyword begins "TABLE" (by decide)
  have unnest := next_keyword begins "UNNEST" (by decide)
  have document := next_keyword begins "JSON_TABLE" (by decide)
  have parenthesis := next_symbol begins "(" (by decide)
  have pivot := next_keyword ends "PIVOT" (by decide)
  have unpivot := next_keyword ends "UNPIVOT" (by decide)
  simp only [relation, withTurns, turned, bind_run, pure_run, lateral, table, unnest, document,
    parenthesis, table_read g inhabited next whole aliased ends, pivot, unpivot, Option.bind_some,
    Bool.false_eq_true, if_false]

end

section
variable {printed : Bool} {t : PlainTable}

theorem alias_next (printed : Bool) (number : numbered (Ident.keyword ⟨t.short, none⟩))
    (rest : List Token) :
    Next [","] (fun word => numbered word || word == "AS") (t.aliasTokens printed ++ rest) := by
  cases printed with
  | false => simpa [PlainTable.aliasTokens, Next, nameToken] using Or.inl number
  | true =>
    have as : Ident.keyword ⟨spell true "as", none⟩ = "AS" := as_keyword
    simp [PlainTable.aliasTokens, Next, keywordToken, nameToken, as]

theorem numbered_alias (printed : Bool) (number : numbered (Ident.keyword ⟨t.short, none⟩))
    (rest : List Token) :
    aliasName reservedAfterTable (t.aliasTokens printed ++ rest) =
      some (some ⟨t.short, none⟩, rest) := by
  cases printed with
  | false =>
    have next := numbered_next number rest
    have as := next_keyword next "AS" (by decide)
    have reserved : seesKeyword reservedAfterTable (nameToken t.short :: rest) =
        some (false, nameToken t.short :: rest) := next_sees_keyword next (by decide +kernel)
    have name : attempt ident (nameToken t.short :: rest) = some (some ⟨t.short, none⟩, rest) := rfl
    simp only [PlainTable.aliasTokens, Bool.false_eq_true, if_false, List.singleton_append,
      aliasName, bind_run, nameToken, as, Option.bind_some] at reserved name ⊢
    simp only [reserved, name, Option.bind_some, Bool.false_eq_true, if_false]
  | true => exact alias_behind_as true reservedAfterTable t.short rest

theorem relation_read (printed : Bool) (g : Grammar) (inner : Parser Source) (named : t.Named)
    (ends : TableEnds rest) :
    g.relation inner (t.tokens printed ++ rest) = some (t.relation, rest) := by
  have next := alias_next printed named.number rest
  have aliased := table_alias (numbered_alias printed named.number rest) ends
  rw [PlainTable.tokens, List.append_assoc]
  exact named_relation_read g inner (of_key_inhabited t.name) named.free next (by decide) aliased
    ends

end
end

section
variable {printed : Bool} {rest : List Token}

theorem join_none (g : Grammar) (right : Parser Relation)
    (ends : SourceEnds rest) : g.join right rest = some (none, rest) := by
  have absent := fun keyword other => next_keyword ends keyword other
  have sides : oneOf? ["LEFT", "RIGHT"] rest = some (none, rest) := next_one_of ends (by decide)
  have kind : joinKind rest = some (none, rest) := by
    simp only [joinKind, bind_run, pure_run, absent "INNER" (by decide), absent "JOIN" (by decide),
      absent "FULL" (by decide), sides, Option.bind_some, Bool.false_eq_true, if_false]
  simp only [Grammar.join, bind_run, pure_run, absent "CROSS" (by decide),
    absent "OUTER" (by decide), absent "NATURAL" (by decide), kind, Option.bind_some,
    Bool.false_eq_true, if_false]

theorem join_keyword : Ident.keyword ⟨spell printed "join", none⟩ = "JOIN" := by
  cases printed <;> decide

theorem on_keyword : Ident.keyword ⟨spell printed "on", none⟩ = "ON" := by
  cases printed <;> decide

theorem join_begins (printed : Bool) (rest : List Token) :
    Next [] ["JOIN"].contains (keywordToken printed "join" :: rest) :=
  next_named join_keyword (by simp) rest

theorem on_ends (rest : List Token) : TableEnds (keywordToken printed "on" :: rest) :=
  next_named on_keyword (by simp) rest

variable {g h : Grammar}

theorem constraint_read (inner : g.expr = h.wholeExpr) {conditions : List Equality}
    (inhabited : conditions ≠ []) (numbers : ∀ e ∈ conditions, e.Numbered)
    (ends : JoinEnds rest) :
    g.joinConstraint false
        (keywordToken printed "on" :: (Equality.allTokens printed conditions ++ rest)) =
      some (maybeParts " ON " (Equality.all conditions), rest) := by
  obtain ⟨e, all, condition⟩ :=
    whole_all printed h inhabited numbers (join_ends_closes ends)
  simp only [joinConstraint, keywordToken, nameToken, bind_run, pure_run,
    keyword_read on_keyword, inner, condition, all, maybeParts, Option.bind_some,
    Bool.false_eq_true, if_false, if_true]

theorem join_read (inner : g.expr = h.wholeExpr) {right : Parser Relation} {j : PlainJoin}
    (table : ∀ rest, TableEnds rest →
      right (j.table.tokens printed ++ rest) = some (j.table.relation, rest))
    (inhabited : j.on ≠ []) (numbers : ∀ e ∈ j.on, e.Numbered) (ends : JoinEnds rest) :
    g.join right (j.tokens printed ++ rest) = some (some j.join, rest) := by
  have absent := fun tokens keyword other =>
    next_keyword (join_begins printed tokens) keyword other
  have read : ∀ tokens, keyword? "JOIN" (keywordToken printed "join" :: tokens) =
      some (true, tokens) := keyword_read join_keyword
  have kind : ∀ tokens, joinKind (keywordToken printed "join" :: tokens) =
      some (some "JOIN ".toList, tokens) := by
    intro tokens
    simp only [joinKind, bind_run, pure_run, absent _ "INNER" (by decide), read, Option.bind_some,
      Bool.false_eq_true, if_false, if_true]
  simp only [PlainJoin.tokens, List.cons_append, List.append_assoc, Grammar.join, bind_run,
    pure_run, absent _ "CROSS" (by decide), absent _ "OUTER" (by decide),
    absent _ "NATURAL" (by decide), kind, table _ (on_ends _),
    constraint_read inner inhabited numbers ends, Option.bind_some, Bool.false_eq_true, if_false]
  rfl

end

end Grammar
end TripleTable.Sql
