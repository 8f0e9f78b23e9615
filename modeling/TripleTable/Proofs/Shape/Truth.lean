import Mathlib.Data.List.Forall2
import TripleTable.Proofs.Shape.Walking
import TripleTable.Proofs.Text.Numbers
set_option autoImplicit false

/-!
What a condition says of a row of integers, and what the comparisons say that are collected from it.
-/
namespace TripleTable.Shape
open Sql

abbrev Row := ColumnRef → Int

-- The column of a dotted name is its last part; the parts before it qualify it.
def columnNamed? : Name → Option ColumnRef
  | [] => none
  | [name] => some ⟨none, name.value⟩
  | first :: second :: rest =>
    (columnNamed? (second :: rest)).map fun c =>
      match c.qualifier with
      | some qualifier => ⟨some (first.value ++ "." ++ qualifier), c.column⟩
      | none => ⟨some first.value, c.column⟩

def columnOf? : Expr → Option ColumnRef
  | .column name => some ⟨none, name.value⟩
  | .path names => columnNamed? names
  | .nested inner => columnOf? inner
  | _ => none

-- The integer that digits stand for behind any signs.
def numeral? : Expr → Option Int
  | .number digits _ => (Text.toNat? digits).map Int.ofNat
  | .unary .minus operand => (numeral? operand).map fun n => -n
  | .unary .plus operand => numeral? operand
  | .nested inner => numeral? inner
  | _ => none

def value? (row : Row) (e : Expr) : Option Int :=
  match columnOf? e with
  | some column => some (row column)
  | none => numeral? e

def Holds (row : Row) : Expr → Prop
  | .binary left .and right => Holds row left ∧ Holds row right
  | .binary left .or right => Holds row left ∨ Holds row right
  | .binary left (.compare op) right =>
    ∃ x y, value? row left = some x ∧ value? row right = some y ∧ op.Holds x y
  | .nested inner => Holds row inner
  | _ => False

def Comparison.Holds (row : Row) (c : Comparison) : Prop :=
  ∃ n, c.right = .integer n ∧ c.op.Holds (row c.left) n

-- The terms of a conjunction as they are written, in parentheses or not.
def terms : Expr → List Expr
  | .binary left .and right => terms left ++ terms right
  | .nested inner => terms inner
  | e => [e]

def isComparison : Expr → Bool
  | .binary _ (.compare _) _ => true
  | _ => false

def IsColumn (e : Expr) : Prop := ∃ column, columnOf? e = some column

def IsInteger (e : Expr) : Prop := ∃ n : Int, numeral? e = some n ∧ n.natAbs < integerBound

-- Every comparison of the conjunction has a column on one side and an integer on the other.
def IntegerComparisons (condition : Expr) : Prop :=
  ∀ left op right, .binary left (.compare op) right ∈ terms condition →
    IsColumn left ∧ IsInteger right ∨ IsInteger left ∧ IsColumn right

-- A comparison and what is collected for it, which has the column on its left.
inductive Collected : Expr → Comparison → Prop
  | written {left right : Expr} {op : ComparisonOp} {column : ColumnRef} {n : Int} :
      columnOf? left = some column → numeral? right = some n →
      Collected (.binary left (.compare op) right) ⟨column, op, .integer n⟩
  | mirrored {left right : Expr} {op : ComparisonOp} {column : ColumnRef} {n : Int} :
      numeral? left = some n → columnOf? right = some column →
      Collected (.binary left (.compare op) right) ⟨column, op.mirrored, .integer n⟩

-- A disjunction of equalities that lists integers for one column.
inductive Listing (column : ColumnRef) : Expr → Prop
  | equality {left right : Expr} {n : Int} : columnOf? left = some column →
      literal right = .ok (.integer n) → Listing column (.binary left (.compare .eq) right)
  | either {left right : Expr} : Listing column left → Listing column right →
      Listing column (.binary left .or right)

/-! ### Columns and numbers -/

theorem key_cons (first second : Ident) (rest : Name) :
    Name.key (first :: second :: rest) = first.value ++ "." ++ Name.key (second :: rest) := by
  simp [Name.key, Text.join, List.intercalate]

theorem column_ref_named (names : Name) : columnRef? (.path names) = columnNamed? names := by
  induction names with
  | nil => rfl
  | cons first rest ih =>
    cases rest with
    | nil => rfl
    | cons second rest =>
      rw [columnNamed?, ← ih]
      cases rest with
      | nil => simp [columnRef?, Name.key, Text.join, List.intercalate]
      | cons third rest =>
        simp only [columnRef?, List.getLast?_cons_cons, List.dropLast_cons_cons, List.isEmpty_cons,
          key_cons, Option.map_map]
        rfl

theorem column_ref_of (e : Expr) : columnRef? e = columnOf? e := by
  cases e with
  | path names => exact column_ref_named names
  | nested inner => exact column_ref_of inner
  | _ => rfl

theorem numeral_no_column {e : Expr} {n : Int} (number : numeral? e = some n) :
    columnOf? e = none := by
  cases e with
  | nested inner => exact numeral_no_column (e := inner) number
  | column name => cases number
  | path names => cases number
  | _ => rfl

theorem value_column (row : Row) {e : Expr} {column : ColumnRef}
    (named : columnOf? e = some column) : value? row e = some (row column) := by
  rw [value?, named]

theorem value_numeral (row : Row) {e : Expr} {n : Int} (number : numeral? e = some n) :
    value? row e = some n := by
  rw [value?, numeral_no_column number]
  exact number

theorem literal_numeral {e : Expr} {n : Int} (number : numeral? e = some n)
    (small : n.natAbs < integerBound) : literal e = .ok (.integer n) := by
  cases e with
  | number digits long =>
    obtain ⟨m, digits_read, rfl⟩ := Option.map_eq_some_iff.mp number
    have all_digits := List.all_eq_true.mpr (Text.digits_of_to_nat digits_read).2
    have read : Text.toInt? digits = some (m : Int) := by
      rw [Text.to_int_digits all_digits, digits_read]
      rfl
    have within : -integerBound ≤ (m : Int) ∧ (m : Int) < integerBound := by
      have whole : ((Int.ofNat m).natAbs : Int) = m := rfl
      unfold integerBound at small ⊢
      omega
    simp only [literal, number?, read, if_pos within]
    rfl
  | nested inner => exact literal_numeral (e := inner) number small
  | unary op operand =>
    cases op with
    | plus => exact literal_numeral (e := operand) number small
    | minus =>
      obtain ⟨m, inner, rfl⟩ := Option.map_eq_some_iff.mp number
      rw [Int.natAbs_neg] at small
      rw [literal, literal_numeral inner small]
      rfl
    | not => cases number
  | _ => cases number

/-! ### What is collected -/

theorem mirrored_holds (op : ComparisonOp) (x y : Int) : op.mirrored.Holds x y ↔ op.Holds y x := by
  cases op with
  | eq => exact eq_comm
  | ne => exact ne_comm
  | _ => exact Iff.rfl

theorem collected_holds {t : Expr} {c : Comparison} (collected : Collected t c) (row : Row) :
    Holds row t ↔ c.Holds row := by
  cases collected with
  | written named number =>
    simp [Holds, Comparison.Holds, value_column row named, value_numeral row number]
  | mirrored number named =>
    simp [Holds, Comparison.Holds, value_column row named, value_numeral row number,
      mirrored_holds]

theorem normalize_collected {left right : Expr} {op : ComparisonOp} {c : Comparison}
    (sides : IsColumn left ∧ IsInteger right ∨ IsInteger left ∧ IsColumn right)
    (normal : normalize left op right = .ok c) :
    Collected (.binary left (.compare op) right) c := by
  unfold normalize at normal
  rw [column_ref_of, column_ref_of] at normal
  rcases sides with ⟨⟨column, named⟩, n, number, small⟩ | ⟨⟨n, number, small⟩, column, named⟩
  · simp only [named, literal_numeral number small] at normal
    obtain rfl := Except.ok.inj normal
    exact .written named number
  · simp only [numeral_no_column number, named, literal_numeral number small] at normal
    obtain rfl := Except.ok.inj normal
    exact .mirrored number named

theorem column_listing {e : Expr} {column : ColumnRef} (found : disjunctionColumn? e = some column) :
    Listing column e := by
  cases e with
  | binary left op right =>
    cases op with
    | or =>
      obtain ⟨first, second⟩ := disjunction_column_or.mp found
      exact .either (column_listing first) (column_listing second)
    | compare op =>
      cases op with
      | eq =>
        rw [disjunctionColumn?] at found
        split at found
        · rename_i integer
          obtain ⟨n, read⟩ := is_integer_value integer
          exact .equality ((column_ref_of left).symm.trans found) read
        · cases found
      | _ => cases found
    | _ => cases found
  | _ => cases found

theorem disjunction_either {e : Expr} (disjunction : isDisjunction e) :
    ∃ left right, e = .binary left .or right := by
  cases e with
  | binary left op right =>
    cases op with
    | or => exact ⟨left, right, rfl⟩
    | _ => cases disjunction
  | _ => cases disjunction

theorem comparisons_nested {inner : Expr} {list : List Comparison}
    (read : comparisons (.nested inner) = .ok list) :
    isDisjunction inner ∧ (∃ column, Listing column inner) ∧ list = [] ∨
      comparisons inner = .ok list := by
  rw [comparisons] at read
  by_cases skipped : isDisjunction inner && (disjunctionColumn? inner).isSome
  · rw [if_pos skipped] at read
    obtain ⟨disjunction, found⟩ := Bool.and_eq_true_iff.mp skipped
    obtain ⟨column, found⟩ := Option.isSome_iff_exists.mp found
    exact .inl ⟨disjunction, ⟨column, column_listing found⟩, (Except.ok.inj read).symm⟩
  · rw [if_neg skipped] at read
    exact .inr read

-- By induction on the condition: both sides of AND one behind the other, and what stands in
-- parentheses by itself unless it is a listing.
theorem comparisons_collected {e : Expr} {list : List Comparison}
    (read : comparisons e = .ok list) (integers : IntegerComparisons e) :
    List.Forall₂ Collected ((terms e).filter isComparison) list := by
  cases e with
  | nested inner =>
    rcases comparisons_nested read with ⟨disjunction, -, rfl⟩ | read
    · obtain ⟨left, right, rfl⟩ := disjunction_either disjunction
      exact .nil
    · exact comparisons_collected (e := inner) read integers
  | binary left op right =>
    cases op with
    | and =>
      obtain ⟨first, second, here, there, rfl⟩ := comparisons_and.mp read
      rw [terms, List.filter_append]
      refine List.rel_append (comparisons_collected here ?_) (comparisons_collected there ?_)
      · exact fun l op r member => integers l op r (List.mem_append_left _ member)
      · exact fun l op r member => integers l op r (List.mem_append_right _ member)
    | compare op =>
      obtain ⟨c, normal, rfl⟩ := comparisons_compare.mp read
      have sides := integers left op right List.mem_cons_self
      exact .cons (normalize_collected sides normal) .nil
    | _ => cases read
  | _ => cases read

theorem comparisons_terms {e : Expr} {list : List Comparison} (read : comparisons e = .ok list) :
    ∀ t ∈ terms e, isComparison t ∨ isDisjunction t ∧ ∃ column, Listing column t := by
  cases e with
  | nested inner =>
    rcases comparisons_nested read with ⟨disjunction, listing, -⟩ | read
    · intro t member
      obtain ⟨left, right, rfl⟩ := disjunction_either disjunction
      rw [List.mem_singleton.mp member]
      exact .inr ⟨rfl, listing⟩
    · exact comparisons_terms (e := inner) read
  | binary left op right =>
    cases op with
    | and =>
      obtain ⟨first, second, here, there, -⟩ := comparisons_and.mp read
      intro t member
      rcases List.mem_append.mp member with left_term | right_term
      · exact comparisons_terms here t left_term
      · exact comparisons_terms there t right_term
    | compare op =>
      intro t member
      rw [List.mem_singleton.mp member]
      exact .inl rfl
    | _ => cases read
  | _ => cases read

theorem holds_terms (row : Row) (e : Expr) : Holds row e ↔ ∀ t ∈ terms e, Holds row t := by
  cases e with
  | nested inner => exact holds_terms row inner
  | binary left op right =>
    cases op with
    | and =>
      rw [Holds, terms, List.forall_mem_append, holds_terms row left, holds_terms row right]
    | _ => exact List.forall_mem_singleton.symm
  | _ => exact List.forall_mem_singleton.symm

theorem all_collected {list : List Expr} {collected : List Comparison}
    (each : List.Forall₂ Collected list collected) (row : Row) :
    (∀ t ∈ list, Holds row t) ↔ ∀ c ∈ collected, c.Holds row := by
  induction each with
  | nil => simp
  | cons first _ ih => rw [List.forall_mem_cons, List.forall_mem_cons, ih, collected_holds first row]

theorem predicates_mean_condition {q : Query} {shape : Shape} {block : Select} {condition : Expr}
    (walked : ofStatement (.query q) = .ok shape) (body : q.body = .select block)
    (selection : block.selection = some condition) (integers : IntegerComparisons condition) :
    List.Forall₂ Collected ((terms condition).filter isComparison) shape.predicates ∧
    (∀ t ∈ terms condition, isComparison t ∨ isDisjunction t ∧ ∃ column, Listing column t) ∧
    ∀ row, Holds row condition ↔ (∀ c ∈ shape.predicates, c.Holds row) ∧
      ∀ t ∈ terms condition, isDisjunction t → Holds row t := by
  obtain ⟨-, -, block', body', walked⟩ := of_query.mp walked
  obtain rfl : block = block' := Body.select.inj (body.symm.trans body')
  obtain ⟨-, list, read, rfl⟩ := of_select.mp walked
  rw [selection] at read
  have collected := comparisons_collected read integers
  have kinds := comparisons_terms read
  refine ⟨collected, kinds, fun row => ?_⟩
  rw [holds_terms, ← all_collected collected]
  constructor
  · intro all
    exact ⟨fun t member => all t (List.mem_of_mem_filter member), fun t member _ => all t member⟩
  · rintro ⟨compared, listed⟩ t member
    rcases kinds t member with comparison | ⟨disjunction, -⟩
    · exact compared t (List.mem_filter.mpr ⟨member, comparison⟩)
    · exact listed t member disjunction

def equals (column digits : String) : Expr :=
  .binary (.column ⟨column, none⟩) (.compare .eq) (.number digits false)

def bounded : Expr := .binary (.number "100" false) (.compare .gt) (.column ⟨"fid", none⟩)

def signed : Expr :=
  .binary (.nested (.path [⟨"t", none⟩, ⟨"g", none⟩])) (.compare .le)
    (.unary .minus (.nested (.unary .plus (.number "5" false))))

def listed : Expr := .binary (equals "p" "0") .or (equals "p" "1")

-- 100 > fid AND ((t.g) <= -(+5) AND (p = 0 OR p = 1))
def mixedCondition : Expr :=
  .binary bounded .and (.nested (.binary signed .and (.nested listed)))

def mixedQuery : Query :=
  ⟨[], .select ⟨[], [.parts [.words "*"]], [], [⟨⟨.table [⟨"t", none⟩] [], none, []⟩, []⟩], [],
    some mixedCondition, []⟩, [.words []]⟩

def mixedShape : Shape where
  projection := ["*"]
  tables := ["t"]
  predicates := [⟨⟨none, "fid"⟩, .lt, .integer 100⟩, ⟨⟨some "t", "g"⟩, .le, .integer (-5)⟩]

theorem mixed_condition_collected :
    ofStatement (.query mixedQuery) = .ok mixedShape ∧ IntegerComparisons mixedCondition ∧
      ∀ row, Holds row mixedCondition ↔
        (∀ c ∈ mixedShape.predicates, c.Holds row) ∧ Holds row listed := by
  have walked : ofStatement (.query mixedQuery) = .ok mixedShape := rfl
  have parts : terms mixedCondition = [bounded, signed, listed] := rfl
  have integers : IntegerComparisons mixedCondition := by
    intro left op right member
    rw [parts] at member
    simp only [List.mem_cons, List.not_mem_nil, or_false, bounded, signed, listed, Expr.binary.injEq,
      BinaryOp.compare.injEq, reduceCtorEq, false_and, and_false] at member
    rcases member with ⟨rfl, rfl, rfl⟩ | ⟨rfl, rfl, rfl⟩
    · exact .inr ⟨⟨100, rfl, by decide⟩, _, rfl⟩
    · exact .inl ⟨⟨_, rfl⟩, -5, rfl, by decide⟩
  obtain ⟨-, -, means⟩ := predicates_mean_condition walked rfl rfl integers
  refine ⟨walked, integers, fun row => ?_⟩
  rw [means, parts]
  simp [bounded, signed, listed, isDisjunction]

end TripleTable.Shape
