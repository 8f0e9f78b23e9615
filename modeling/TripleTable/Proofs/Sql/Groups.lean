import TripleTable.Proofs.Sql.Operands
set_option autoImplicit false

/-!
How the grammar reads numbers, with and without a sign, and what stands in parentheses.
-/
namespace TripleTable.Sql.Grammar
open Sql.Parser

section
variable {g inner : Grammar} {symbols : List String} {tokens rest : List Token} {e : Expr}

theorem trails_rank (trails : Trails rest) : rankOf rest ≤ comparisonRank := by
  match rest, trails with
  | [], _ => exact Nat.zero_le _
  | .symbol symbol :: _, (trails : symbol ∈ [",", ")", "=", "<", "<=", ">", ">=", "<>"]) =>
    have low : ∀ symbol ∈ [",", ")", "=", "<", "<=", ">", ">=", "<>"],
        rankOf (.symbol symbol :: []) ≤ comparisonRank := by decide
    exact low symbol trails
  | .word name :: _, (trails : ["FROM", "AND", "OR", "JOIN", "WHERE"].contains name.keyword) =>
    simp only [List.contains_eq_mem, List.mem_cons, List.not_mem_nil, or_false,
      decide_eq_true_eq] at trails
    rcases trails with same | same | same | same | same <;> simp only [rankOf, same] <;>
      exact Nat.le_of_ble_eq_true rfl

theorem number_legible (g : Grammar) (digits : Text) (long : Bool) :
    Legible g [.number digits long] (.number digits long) :=
  ⟨fun _ _ trails => operand_other g _ rfl rfl trails, fun _ => one_of_none fun _ _ => rfl,
    List.cons_ne_nil _ _⟩

-- A sign binds closer than any operator that may follow its number.
theorem negative_legible (g : Grammar) (digits : Text) (long : Bool) :
    Legible g [.symbol "-", .number digits long] (.unary .minus (.number digits long)) := by
  refine ⟨fun n rest trails => ?_, fun _ => one_of_none fun _ _ => rfl, List.cons_ne_nil _ _⟩
  have lowest : rankOf rest ≤ factorRank := Nat.le_trans (trails_rank trails) (by decide)
  have number : (g.lower (n + 1)).above factorRank (.number digits long :: rest) =
      some (.number digits long, rest) := by
    rw [above_run, operand_other g _ rfl rfl trails]
    exact extend_stop g _ n _ lowest
  have plain : g.plainOperand (g.lower (n + 1)) (.symbol "-" :: .number digits long :: rest) =
      some (.unary .minus (.number digits long), rest) := by
    simp only [plainOperand, bind_run, Parser.next, Option.bind_some, pure_run, number]
  exact operand_other g _ rfl plain trails

theorem or_connects {name : Ident} (keyword : name.keyword = "OR") : Connects name .or orRank := by
  refine ⟨?_, next_named keyword (by simp), by decide, by decide⟩
  rw [keyword]
  rfl

theorem group_read (expr : g.expr = inner.wholeExpr)
    (first : Next symbols isIdle (tokens ++ .symbol ")" :: rest))
    (reads : inner.wholeExpr (tokens ++ .symbol ")" :: rest) = some (e, .symbol ")" :: rest)) :
    g.group (tokens ++ .symbol ")" :: rest) = some (.nested e, rest) := by
  have busy : ∀ word ∈ ["SELECT", "WITH"], isIdle word = false := fun word member =>
    query_word_busy (List.mem_append_left ["ANY", "ALL"] member)
  have query := next_sees_keyword first busy
  have comma : symbol? "," (.symbol ")" :: rest) = some (false, .symbol ")" :: rest) := rfl
  simp only [group, bind_run, query, Option.bind_some, Bool.false_eq_true, if_false,
    commaSeparated, items, itemsUpTo, expr, reads, comma, pure_run, symbol, symbol_read, if_true]

theorem nested_legible (expr : g.expr = inner.wholeExpr)
    (first : ∀ rest, Next symbols isIdle (tokens ++ rest))
    (reads : ∀ rest, inner.wholeExpr (tokens ++ .symbol ")" :: rest) =
      some (e, .symbol ")" :: rest)) :
    Legible g (.symbol "(" :: (tokens ++ [.symbol ")"])) (.nested e) := by
  refine ⟨fun n rest trails => ?_, fun _ => one_of_none fun _ _ => rfl, List.cons_ne_nil _ _⟩
  have group := group_read expr (first (.symbol ")" :: rest)) (reads rest)
  have period := next_symbol trails "." (by decide)
  have plain : g.plainOperand (g.lower (n + 1)) (.symbol "(" :: (tokens ++ .symbol ")" :: rest)) =
      some (.nested e, rest) := by
    simp only [plainOperand, bind_run, Parser.next, Option.bind_some, group, period, pure_run,
      Bool.false_eq_true, if_false]
  rw [List.cons_append, List.append_assoc]
  exact operand_other g _ rfl plain trails

end

end TripleTable.Sql.Grammar
