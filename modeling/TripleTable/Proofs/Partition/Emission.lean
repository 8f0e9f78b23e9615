import TripleTable.Partition.Rewrite
import TripleTable.Proofs.Partition.Expansion
import TripleTable.Proofs.Shape.Walking
import TripleTable.Proofs.Sql.Renaming
import TripleTable.Proofs.Text.Numbers
set_option autoImplicit false

/-!
The conditions that a rewriting adds, as the tree their text is read back as: a number below zero
is a sign before a number.
-/
namespace TripleTable.Partition
open Sql
open Shape (ColumnRef Literal Comparison comparisons disjunctionColumn? isDisjunction literal
  isInteger integerBound columnRef?)

def signed : Int → Expr
  | .ofNat n => .number (Text.ofNat n) false
  | .negSucc n => .unary .minus (.number (Text.ofNat (n + 1)) false)

def spelled (column : Text) (p : Int) : Expr :=
  .binary (.path (Name.ofKey column)) (.compare .eq) (signed p)

def Constraint.condition (c : Constraint) : Expr :=
  .nested ((disjunction? (c.partitions.map (spelled c.column))).getD (.boolean true))

theorem signed_text (p : Int) : (signed p).text = Text.ofInt p := by
  cases p with
  | ofNat n => simp [signed, Expr.text, Text.ofInt]
  | negSucc n => simp [signed, Expr.text, Text.ofInt, UnaryOp.text]

theorem spelled_text (column : Text) (p : Int) :
    (spelled column p).text = (Constraint.equality column p).text := by
  simp [spelled, Constraint.equality, Expr.text, signed_text]

theorem number_of_nat (n : Nat) :
    (∃ v, Shape.number? (Text.ofNat n) = some (.integer v)) ∨
      ∃ x, Shape.number? (Text.ofNat n) = some (.float x) := by
  have double := Text.to_double_digits (Text.of_nat_inhabited n)
    (List.all_eq_true.mpr fun _ => Text.of_nat_digit)
  obtain ⟨x, read⟩ := Option.isSome_iff_exists.mp double
  simp only [Shape.number?, Text.to_int_of_nat, read]
  by_cases within : -integerBound ≤ (n : Int) ∧ (n : Int) < integerBound
  · exact .inl ⟨n, if_pos within⟩
  · exact .inr ⟨x, if_neg within⟩

theorem number_within {n : Nat} (within : (n : Int) < integerBound) :
    Shape.number? (Text.ofNat n) = some (.integer n) := by
  have above : -integerBound ≤ (n : Int) := by
    simp only [integerBound]
    omega
  simp only [Shape.number?, Text.to_int_of_nat, if_pos (And.intro above within)]

theorem signed_literal (p : Int) : ∃ value, literal (signed p) = .ok value := by
  cases p with
  | ofNat n =>
    rcases number_of_nat n with ⟨v, read⟩ | ⟨x, read⟩
    · exact ⟨.integer v, by simp only [signed, literal, read]⟩
    · exact ⟨.float x, by simp only [signed, literal, read]⟩
  | negSucc n =>
    rcases number_of_nat (n + 1) with ⟨v, read⟩ | ⟨x, read⟩
    · exact ⟨.integer (-v), by simp only [signed, literal, read, bind, Except.bind]; rfl⟩
    · exact ⟨.float (-x), by simp only [signed, literal, read, bind, Except.bind]; rfl⟩

theorem signed_integer {p : Int} (low : -integerBound < p) (high : p < integerBound) :
    literal (signed p) = .ok (.integer p) := by
  cases p with
  | ofNat n => simp only [signed, literal, number_within high, Int.ofNat_eq_natCast]
  | negSucc n =>
    have within : ((n + 1 : Nat) : Int) < integerBound := by omega
    simp only [signed, literal, number_within within, bind, Except.bind, pure, Except.pure]
    rfl

theorem disjunction_halves {terms : List Expr} (several : 2 ≤ terms.length) :
    disjunction? terms =
      (disjunction? (terms.take (terms.length / 2))).bind fun left =>
        (disjunction? (terms.drop (terms.length / 2))).map fun right =>
          .binary left .or right := by
  match terms with
  | first :: second :: rest =>
    rw [disjunction?]
    cases disjunction? ((first :: second :: rest).take ((first :: second :: rest).length / 2)) with
    | none => rfl
    | some left =>
      cases disjunction? ((first :: second :: rest).drop ((first :: second :: rest).length / 2)) <;>
        rfl

-- The halves of a disjunction may be disjunctions themselves, so what is said of all of them
-- is said along the way they are built, not along the list of terms.
theorem disjunction_halved {motive : List Expr → Expr → Prop} (single : ∀ term, motive [term] term)
    (halves : ∀ front back left right, front ≠ [] → front.length = (front ++ back).length / 2 →
      motive front left → motive back right → motive (front ++ back) (.binary left .or right))
    (terms : List Expr) (inhabited : terms ≠ []) :
    ∃ e, disjunction? terms = some e ∧ motive terms e := by
  have positive := List.length_pos_iff.mpr inhabited
  by_cases several : 2 ≤ terms.length
  · have front : terms.take (terms.length / 2) ≠ [] := by
      rw [← List.length_pos_iff, List.length_take]
      omega
    have back : terms.drop (terms.length / 2) ≠ [] := by
      rw [← List.length_pos_iff, List.length_drop]
      omega
    have half : (terms.take (terms.length / 2)).length =
        (terms.take (terms.length / 2) ++ terms.drop (terms.length / 2)).length / 2 := by
      rw [List.take_append_drop, List.length_take]
      omega
    obtain ⟨left, made_left, built_left⟩ := disjunction_halved single halves _ front
    obtain ⟨right, made_right, built_right⟩ := disjunction_halved single halves _ back
    refine ⟨.binary left .or right, ?_, ?_⟩
    · rw [disjunction_halves several, made_left, made_right]
      rfl
    · have whole := halves _ _ left right front half built_left built_right
      rwa [List.take_append_drop] at whole
  · obtain ⟨term, rfl⟩ := List.length_eq_one_iff.mp (by omega : terms.length = 1)
    exact ⟨term, by rw [disjunction?], single term⟩
termination_by terms.length
decreasing_by
  · rw [List.length_take]
    omega
  · rw [List.length_drop]
    omega

theorem disjunction_built {motive : List Expr → Expr → Prop} (single : ∀ term, motive [term] term)
    (halves : ∀ front back left right, front ≠ [] → back ≠ [] → motive front left →
      motive back right → motive (front ++ back) (.binary left .or right))
    (terms : List Expr) (inhabited : terms ≠ []) :
    ∃ e, disjunction? terms = some e ∧ motive terms e := by
  refine disjunction_halved single (fun front back left right some_front half => ?_) terms inhabited
  have some_back : back ≠ [] := by
    rintro rfl
    have positive := List.length_pos_iff.mpr some_front
    rw [List.append_nil] at half
    omega
  exact halves front back left right some_front some_back

theorem join_append (separator : Text) {front back : List Text} (inhabited : front ≠ [])
    (more : back ≠ []) :
    Text.join separator (front ++ back) =
      Text.join separator front ++ separator ++ Text.join separator back := by
  induction front with
  | nil => exact absurd rfl inhabited
  | cons first rest ih =>
    cases rest with
    | nil => simp [Text.join, List.intercalate_cons_of_ne_nil more]
    | cons second rest =>
      simp only [Text.join, List.cons_append, List.intercalate_cons_cons, List.append_assoc] at ih ⊢
      rw [ih (by simp)]

theorem either_text {front back : List Expr} {left right : Expr} (some_front : front ≠ [])
    (some_back : back ≠ [])
    (text_left : left.text = Text.join " OR ".toList (front.map Expr.text))
    (text_right : right.text = Text.join " OR ".toList (back.map Expr.text)) :
    (Expr.binary left .or right).text =
      Text.join " OR ".toList ((front ++ back).map Expr.text) := by
  rw [List.map_append, join_append _ (by simpa using some_front) (by simpa using some_back),
    ← text_left, ← text_right]
  simp [Expr.text, BinaryOp.text]

theorem disjunction_text (terms : List Expr) (inhabited : terms ≠ []) :
    ∃ e, disjunction? terms = some e ∧
      e.text = Text.join " OR ".toList (terms.map Expr.text) := by
  refine disjunction_built
    (motive := fun terms e => e.text = Text.join " OR ".toList (terms.map Expr.text))
    (fun term => by simp [Text.join]) ?_ terms inhabited
  intro front back left right some_front some_back text_left text_right
  exact either_text some_front some_back text_left text_right

theorem condition_text (c : Constraint) : c.condition.text = c.expr.text := by
  have texts : (c.partitions.map (spelled c.column)).map Expr.text =
      (c.partitions.map (Constraint.equality c.column)).map Expr.text := by
    simp only [List.map_map]
    exact List.map_congr_left fun p _ => spelled_text c.column p
  cases listed : c.partitions with
  | nil => simp [Constraint.condition, Constraint.expr, listed]
  | cons first rest =>
    rw [listed] at texts
    obtain ⟨e, made, text⟩ := disjunction_text ((first :: rest).map (spelled c.column)) (by simp)
    obtain ⟨other, made_other, text_other⟩ :=
      disjunction_text ((first :: rest).map (Constraint.equality c.column)) (by simp)
    simp only [Constraint.condition, Constraint.expr, listed, made, made_other, Option.getD_some,
      Expr.text, text, text_other, texts]

theorem disjunction_all {P : Expr → Prop}
    (kept : ∀ left right, P left → P right → P (.binary left .or right)) {terms : List Expr}
    (inhabited : terms ≠ []) (all : ∀ term ∈ terms, P term) :
    ∃ e, disjunction? terms = some e ∧ P e := by
  obtain ⟨e, made, holds⟩ := disjunction_built
    (motive := fun terms e => (∀ term ∈ terms, P term) → P e) (fun term => by simp)
    (fun front back left right _ _ here there both =>
      kept left right (here (List.forall_mem_append.mp both).1)
        (there (List.forall_mem_append.mp both).2))
    terms inhabited
  exact ⟨e, made, holds all⟩

theorem condition_subquery (c : Constraint) : c.condition.hasSubquery = false := by
  by_cases empty : c.partitions = []
  · simp [Constraint.condition, empty, disjunction?, Expr.hasSubquery]
  · have simple : ∀ term ∈ c.partitions.map (spelled c.column), term.hasSubquery = false := by
      refine List.forall_mem_map.mpr fun p _ => ?_
      cases p <;> rfl
    obtain ⟨e, made, none_inside⟩ := disjunction_all (P := fun e => e.hasSubquery = false)
      (fun left right here there => by simp only [Expr.hasSubquery, here, there, Bool.or_self])
      (by simpa using empty) simple
    simp only [Constraint.condition, made, Option.getD_some, Expr.hasSubquery, none_inside]

theorem key_column (key : Text) : ∃ column, columnRef? (.path (Name.ofKey key)) = some column := by
  cases last : (Name.ofKey key).getLast? with
  | none => exact absurd (List.getLast?_eq_none_iff.mp last) (of_key_inhabited key)
  | some column => exact ⟨_, by simp only [columnRef?, last, Option.map_some]; rfl⟩

-- The walk of a condition recognises a disjunction by its first comparison with an integer, so
-- a constraint without numbers would be read as something else.
def Constraint.Readable (c : Constraint) : Prop :=
  c.partitions ≠ [] ∧ (2 ≤ c.partitions.length →
    ∀ p ∈ c.partitions, -integerBound < p ∧ p < integerBound)

theorem condition_comparisons {c : Constraint} (readable : c.Readable) :
    ∃ list, comparisons c.condition = .ok list := by
  obtain ⟨inhabited, within⟩ := readable
  obtain ⟨column, found⟩ := key_column c.column
  by_cases several : 2 ≤ c.partitions.length
  · have same : ∀ term ∈ c.partitions.map (spelled c.column),
        disjunctionColumn? term = some column := by
      refine List.forall_mem_map.mpr fun p member => ?_
      obtain ⟨low, high⟩ := within several p member
      simp only [spelled, disjunctionColumn?, signed_integer low high, isInteger, if_true, found]
    obtain ⟨e, made, disjunction⟩ := disjunction_all
      (P := fun e => disjunctionColumn? e = some column)
      (fun left right here there => Shape.disjunction_column_or.mpr ⟨here, there⟩)
      (by simpa using inhabited) same
    have shaped : isDisjunction e := by
      rw [disjunction_halves (by simpa using several)] at made
      obtain ⟨left, -, both⟩ := Option.bind_eq_some_iff.mp made
      obtain ⟨right, -, rfl⟩ := Option.map_eq_some_iff.mp both
      rfl
    refine ⟨[], ?_⟩
    simp only [Constraint.condition, made, Option.getD_some, comparisons, shaped, disjunction,
      Option.isSome_some, Bool.and_self, if_true]
  · have positive := List.length_pos_iff.mpr inhabited
    obtain ⟨p, listed⟩ := List.length_eq_one_iff.mp (by omega : c.partitions.length = 1)
    obtain ⟨value, read⟩ := signed_literal p
    refine ⟨[⟨column, .eq, value⟩], ?_⟩
    have normal : Shape.normalize (.path (Name.ofKey c.column)) .eq (signed p) =
        .ok ⟨column, .eq, value⟩ := by
      simp only [Shape.normalize, found, read]
      rfl
    simp only [Constraint.condition, listed, List.map_cons, List.map_nil, disjunction?,
      Option.getD_some, comparisons, isDisjunction, spelled, Bool.false_and, normal]
    rfl

theorem expand_readable {c : Comparison} {a : Attribute} {qualifier : Text}
    {constraint : Constraint} (expanded : expand c a qualifier = .ok (some constraint)) :
    constraint.Readable := by
  obtain ⟨-, inhabited, k, -, listed⟩ := expand_partitions expanded
  refine ⟨inhabited, fun several p member => ?_⟩
  rcases partitions_bounded listed with single | bounded
  · rw [single] at several
    simp at several
  · have bounds := bounded p member
    simp only [maxPartitions] at bounds
    simp only [integerBound]
    omega

-- Two conditions, present alike, that are written alike. The tree that is read back groups a
-- chain of ANDs from the left, whatever grouping the text came from.
inductive Written : Option Expr → Option Expr → Prop
  | absent : Written none none
  | present {e other : Expr} : e.text = other.text → Written (some e) (some other)

theorem conjunction_written {conditions others : List Expr}
    (same : conditions.map Expr.text = others.map Expr.text) :
    ∀ {selection other : Option Expr}, Written selection other →
      Written (conjunction selection conditions) (conjunction other others) := by
  induction conditions generalizing others with
  | nil =>
    intro selection other written
    obtain rfl := List.map_eq_nil_iff.mp same.symm
    cases written with
    | absent => exact .absent
    | present text => exact .present text
  | cons added rest ih =>
    intro selection other written
    obtain ⟨first, more, rfl, text_first, text_more⟩ := List.map_eq_cons_iff.mp same.symm
    cases written with
    | absent => exact ih text_more.symm (.present text_first.symm)
    | present text =>
      exact ih text_more.symm (.present (by simp only [Expr.text, text, text_first]))

theorem block_text (block : Select) {selection other : Option Expr}
    (written : Written selection other) :
    Select.text { block with selection := selection } =
      Select.text { block with selection := other } := by
  obtain ⟨head, projection, target, sources, views, _, tail⟩ := block
  cases written with
  | absent => rfl
  | present text => rw [select_text, select_text, selection_text, selection_text, text]

theorem conjoin_text (q : Query) {conditions others : List Expr}
    (same : conditions.map Expr.text = others.map Expr.text) :
    (conjoin q conditions).text = (conjoin q others).text := by
  obtain ⟨ctes, body, tail⟩ := q
  cases body with
  | select block =>
    have written : Written block.selection block.selection := by
      cases block.selection with
      | none => exact .absent
      | some condition => exact .present rfl
    have text := block_text block (conjunction_written same written)
    simp only [conjoin, Query.text, Body.text, text]
  | _ => rfl

theorem conjunction_all {P : Expr → Prop}
    (kept : ∀ left right, P left → P right → P (.binary left .and right)) {conditions : List Expr}
    (added : ∀ e ∈ conditions, P e) {selection : Option Expr} (before : ∀ e ∈ selection, P e) :
    ∀ e ∈ conjunction selection conditions, P e := by
  induction conditions generalizing selection with
  | nil => exact before
  | cons first rest ih =>
    obtain ⟨here, others⟩ := List.forall_mem_cons.mp added
    cases selection with
    | none => exact ih others (by simpa using here)
    | some condition => exact ih others (by simpa using kept _ _ (before condition rfl) here)

theorem conjunction_selected {conditions : List Expr}
    (added : ∀ e ∈ conditions, ∃ list, comparisons e = .ok list) {selection : Option Expr}
    (read : ∃ list, Shape.selected selection = .ok list) :
    ∃ list, Shape.selected (conjunction selection conditions) = .ok list := by
  induction conditions generalizing selection with
  | nil => exact read
  | cons first rest ih =>
    obtain ⟨here, others⟩ := List.forall_mem_cons.mp added
    cases selection with
    | none => exact ih others here
    | some condition =>
      obtain ⟨front, before⟩ := read
      obtain ⟨back, behind⟩ := here
      exact ih others ⟨front ++ back, Shape.comparisons_and.mpr ⟨front, back, before, behind, rfl⟩⟩

-- Conditions added to a block change no more than its comparisons.
theorem conjoined_walked {block : Select} {shape : Shape} {conditions : List Expr}
    (walked : Shape.ofSelect block = .ok shape)
    (added : ∀ e ∈ conditions, ∃ list, comparisons e = .ok list) :
    ∃ list, Shape.ofSelect { block with selection := conjunction block.selection conditions } =
      .ok { shape with predicates := list } := by
  obtain ⟨relations, old, read, rfl⟩ := Shape.of_select.mp walked
  obtain ⟨list, read_all⟩ := conjunction_selected added ⟨old, read⟩
  exact ⟨list, Shape.of_select.mpr ⟨relations, list, read_all, rfl⟩⟩

theorem conjoin_select {q : Query} {block : Select} (body : q.body = .select block)
    (conditions : List Expr) :
    conjoin q conditions = { q with
      body := .select { block with selection := conjunction block.selection conditions } } := by
  unfold conjoin
  rw [body]

theorem conjoin_subquery {q : Query} {conditions : List Expr} (simple : q.hasSubquery = false)
    (added : ∀ e ∈ conditions, e.hasSubquery = false) :
    (conjoin q conditions).hasSubquery = false := by
  obtain ⟨ctes, body, tail⟩ := q
  cases body with
  | select block =>
    obtain ⟨head, projection, target, sources, views, selection, rest⟩ := block
    rw [conjoin_select rfl]
    simp only [Query.hasSubquery, Body.hasSubquery, Select.hasSubquery, Bool.or_eq_false_iff]
      at simple ⊢
    obtain ⟨⟨before, ⟨⟨front, condition⟩, back⟩⟩, after⟩ := simple
    refine ⟨⟨before, ⟨⟨front, ?_⟩, back⟩⟩, after⟩
    have old : ∀ e ∈ selection, e.hasSubquery = false := by
      rintro e rfl
      exact condition
    have new := conjunction_all (P := fun e => e.hasSubquery = false)
      (fun left right here there => by simp only [Expr.hasSubquery, here, there, Bool.or_self])
      added old
    cases selected : conjunction selection conditions with
    | none => rfl
    | some e => exact new e selected
  | _ => exact simple

end TripleTable.Partition
