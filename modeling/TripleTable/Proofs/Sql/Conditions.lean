import TripleTable.Proofs.Sql.Operands
import TripleTable.Proofs.Sql.PlainSelect
set_option autoImplicit false

/-!
How the grammar reads a conjunction of equalities between numbered columns and strings.
-/
namespace TripleTable.Sql

theorem numbered_idle {word : String} (number : numbered word) : isIdle word := by
  have plain : ∀ busy ∈ operandWords, numbered busy = false := by decide +kernel
  simp only [isIdle, Bool.not_eq_true', List.contains_eq_mem, decide_eq_false_iff_not]
  intro member
  rw [plain word member] at number
  cases number

def Side.phrase (side : Side) : Phrase := ⟨side.tokens, side.expr⟩

def Equality.phrase (e : Equality) : Phrase := e.left.phrase.compared .eq e.right.phrase

namespace Grammar
open Sql.Parser

section
variable {rest : List Token}

theorem numbered_next {name : Ident} (number : numbered name.keyword) (rest : List Token) :
    Next [] numbered (.word name :: rest) := number

theorem side_legible (g : Grammar) {side : Side} (number : side.Numbered) :
    Legible g side.tokens side.expr := by
  cases side with
  | column table name => exact name_legible g (numbered_idle number) [⟨name, none⟩]
  | string value => exact string_legible g value

theorem equality_joinable (g : Grammar) {e : Equality} (number : e.Numbered) :
    Joinable g e.phrase :=
  compared_joinable (side_legible g number.1) .eq (side_legible g number.2)

theorem and_connects (printed : Bool) : Connects ⟨spell printed "and", none⟩ .and andRank := by
  have keyword : Ident.keyword ⟨spell printed "and", none⟩ = "AND" := by
    cases printed <;> decide
  refine ⟨?_, next_named keyword (by simp), by decide, by decide⟩
  rw [keyword]
  rfl

theorem chained_equalities (printed : Bool) (more : List Equality) :
    Equality.chained printed more =
      Phrase.chained ⟨spell printed "and", none⟩ (more.map Equality.phrase) := by
  rw [Phrase.chained, List.flatMap_map]
  rfl

theorem conjunction_equalities (first : Expr) (more : List Equality) :
    Equality.conjunction first more =
      Phrase.combined .and first (more.map Equality.phrase) := by
  rw [Phrase.combined, List.foldl_map]
  rfl

theorem whole_all (printed : Bool) (g : Grammar) {conditions : List Equality}
    (inhabited : conditions ≠ []) (numbers : ∀ e ∈ conditions, e.Numbered) (closes : Closes rest) :
    ∃ e, Equality.all conditions = some e ∧
      g.wholeExpr (Equality.allTokens printed conditions ++ rest) = some (e, rest) := by
  cases conditions with
  | nil => exact absurd rfl inhabited
  | cons first more =>
    refine ⟨_, rfl, ?_⟩
    have joinable : ∀ p ∈ first.phrase :: more.map Equality.phrase, Joinable g p := by
      rw [← List.map_cons]
      exact List.forall_mem_map.mpr fun e member => equality_joinable g (numbers e member)
    have tokens : first.tokens = first.phrase.tokens := rfl
    have expr : first.expr = first.phrase.expr := rfl
    rw [Equality.all_tokens_cons, List.append_assoc, chained_equalities, conjunction_equalities,
      tokens, expr]
    exact whole_chain (and_connects printed) joinable closes

end

end Grammar
end TripleTable.Sql
