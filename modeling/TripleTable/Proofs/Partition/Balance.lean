import Mathlib.Data.Nat.Log
import TripleTable.Proofs.Partition.Disjunctions
set_option autoImplicit false

/-!
The tree of a constraint's equalities is as low as a tree of that many can be, and does not show
it: it has the equalities from left to right and the text of a chain of them.
-/
namespace TripleTable.Partition
open Sql
open Shape (Comparison)

def alternatives : Expr → List Expr
  | .binary left .or right => alternatives left ++ alternatives right
  | e => [e]

def orDepth : Expr → Nat
  | .binary left .or right => max (orDepth left) (orDepth right) + 1
  | _ => 0

-- A constraint as text with some word between its equalities.
def Constraint.textWith (word : Text) (c : Constraint) : Text :=
  Text.join (" " ++ word ++ " ") (c.partitions.map fun p => c.column ++ " = " ++ Text.ofInt p)

theorem text_with_or (c : Constraint) : c.text = c.textWith "or" := rfl

/-! ### Leaves and text of any tree -/

theorem disjunction_alternatives {terms : List Expr} {t : Expr} (tree : Disjunction terms t)
    (whole : ∀ term ∈ terms, alternatives term = [term]) : alternatives t = terms := by
  induction tree with
  | term e => exact whole e List.mem_cons_self
  | either _ _ left right =>
    obtain ⟨front, back⟩ := List.forall_mem_append.mp whole
    rw [alternatives, left front, right back]

theorem tree_text {terms : List Expr} {t : Expr} (tree : Disjunction terms t) :
    t.text = Text.join " OR ".toList (terms.map Expr.text) := by
  induction tree with
  | term e => simp [Text.join]
  | either front back left right =>
    exact either_text (disjunction_inhabited front) (disjunction_inhabited back) left right

/-! ### The depth of the balanced tree -/

-- The second half is the greater one, so it decides the depth.
theorem halves_depth {front back : Nat} (inhabited : 0 < front)
    (half : front = (front + back) / 2) :
    max (Nat.clog 2 front) (Nat.clog 2 back) + 1 = Nat.clog 2 (front + back) := by
  have rounded : (front + back + 2 - 1) / 2 = back := by omega
  have less : Nat.clog 2 front ≤ Nat.clog 2 back := Nat.clog_mono_right 2 (by omega)
  rw [Nat.clog_of_two_le (by decide) (by omega : 2 ≤ front + back), rounded, max_eq_right less]

theorem disjunction_depth (terms : List Expr) (inhabited : terms ≠ []) :
    ∃ t, disjunction? terms = some t ∧
      ((∀ term ∈ terms, orDepth term = 0) → orDepth t = Nat.clog 2 terms.length) := by
  refine disjunction_halved
    (motive := fun terms t => (∀ term ∈ terms, orDepth term = 0) →
      orDepth t = Nat.clog 2 terms.length) ?_ ?_ terms inhabited
  · intro term flat
    rw [flat term List.mem_cons_self, List.length_singleton, Nat.clog_one_right]
  · intro front back left right some_front half left_depth right_depth flat
    obtain ⟨flat_front, flat_back⟩ := List.forall_mem_append.mp flat
    rw [List.length_append] at half ⊢
    rw [orDepth, left_depth flat_front, right_depth flat_back,
      halves_depth (List.length_pos_iff.mpr some_front) half]

/-! ### Constraints -/

theorem constraint_depth (column : Text) {partitions : List Int} (inhabited : partitions ≠ []) :
    ∃ t, Constraint.expr ⟨column, partitions⟩ = .nested t ∧
      orDepth t = Nat.clog 2 partitions.length := by
  have flat : ∀ term ∈ partitions.map (Constraint.equality column), orDepth term = 0 :=
    List.forall_mem_map.mpr fun _ _ => rfl
  obtain ⟨t, made, depth⟩ := disjunction_depth (partitions.map (Constraint.equality column))
    (by simpa using inhabited)
  rw [List.length_map] at depth
  exact ⟨t, by rw [Constraint.expr, made, Option.getD_some], depth flat⟩

theorem constraint_text_with (column : Text) {partitions : List Int}
    (inhabited : partitions ≠ []) :
    (Constraint.expr ⟨column, partitions⟩).text =
      '(' :: (Constraint.textWith "OR" ⟨column, partitions⟩ ++ [')']) := by
  rw [constraint_text column inhabited]
  simp [Constraint.textWith, equality_text]

theorem expand_depth {c : Comparison} {a : Attribute} {qualifier : Text} {constraint : Constraint}
    (expanded : expand c a qualifier = .ok (some constraint)) :
    ∃ t, constraint.expr = .nested t ∧ orDepth t ≤ 7 := by
  obtain ⟨-, inhabited, k, -, listed⟩ := expand_partitions expanded
  obtain ⟨t, made, depth⟩ := constraint_depth constraint.column inhabited
  refine ⟨t, made, ?_⟩
  rw [depth]
  exact Nat.clog_le_of_le_pow (partitions_count listed)

theorem disjunction_balanced (column : Text) (p : Int) (more : List Int) :
    (∃ t, Constraint.expr ⟨column, p :: more⟩ = .nested t ∧
      alternatives t = (p :: more).map (Constraint.equality column) ∧
      orDepth t = Nat.clog 2 (p :: more).length ∧
      t.text =
        (chained (Constraint.equality column p) (more.map (Constraint.equality column))).text) ∧
    Constraint.text ⟨column, p :: more⟩ = Constraint.textWith "or" ⟨column, p :: more⟩ ∧
    (Constraint.expr ⟨column, p :: more⟩).text =
      '(' :: (Constraint.textWith "OR" ⟨column, p :: more⟩ ++ [')']) ∧
    ∀ c a qualifier constraint, expand c a qualifier = .ok (some constraint) →
      ∃ t, constraint.expr = .nested t ∧ orDepth t ≤ 7 := by
  have inhabited : p :: more ≠ [] := List.cons_ne_nil _ _
  refine ⟨?_, text_with_or _, constraint_text_with column inhabited, fun _ _ _ _ => expand_depth⟩
  obtain ⟨t, made, tree⟩ := constraint_disjunction column inhabited
  obtain ⟨other, same, depth⟩ := constraint_depth column inhabited
  obtain rfl : t = other := Expr.nested.inj (made.symm.trans same)
  have leaves : ∀ term ∈ (p :: more).map (Constraint.equality column),
      alternatives term = [term] := List.forall_mem_map.mpr fun _ _ => rfl
  have chain := chained_disjunction (.term (Constraint.equality column p))
    (more.map (Constraint.equality column))
  exact ⟨t, made, disjunction_alternatives tree leaves, depth, (tree_text tree).trans
    (tree_text chain).symm⟩

theorem five_partitions_balanced :
    expand ⟨⟨some "tbl", "fid"⟩, .lt, .integer 100000⟩ ⟨1, "fid", "fid", 20000⟩ "tbl2" =
        .ok (some ⟨"tbl2.fid", [0, 1, 2, 3, 4]⟩) ∧
      (∃ t, Constraint.expr ⟨"tbl2.fid", [0, 1, 2, 3, 4]⟩ = .nested t ∧ orDepth t = 3 ∧
        orDepth t ≤ 7) ∧
      (Constraint.expr ⟨"tbl2.fid", [0, 1, 2, 3, 4]⟩).text =
        ("(tbl2.fid = 0 OR tbl2.fid = 1 OR tbl2.fid = 2 OR tbl2.fid = 3 OR " ++
          "tbl2.fid = 4)").toList := by
  have expanded : expand ⟨⟨some "tbl", "fid"⟩, .lt, .integer 100000⟩ ⟨1, "fid", "fid", 20000⟩
      "tbl2" = .ok (some ⟨"tbl2.fid", [0, 1, 2, 3, 4]⟩) := rfl
  obtain ⟨⟨t, made, -, depth, -⟩, -, text, limit⟩ :=
    disjunction_balanced "tbl2.fid" 0 [1, 2, 3, 4]
  obtain ⟨other, same, bound⟩ := limit _ _ _ _ expanded
  obtain rfl : t = other := Expr.nested.inj (made.symm.trans same)
  exact ⟨expanded, ⟨t, made, depth.trans (by decide), bound⟩, text.trans (by decide)⟩

end TripleTable.Partition
