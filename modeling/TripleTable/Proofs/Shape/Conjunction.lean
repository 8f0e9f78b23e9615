import TripleTable.Proofs.Shape.Walking
set_option autoImplicit false

/-!
The walk of a conjunction: it is accepted if both sides are, and holds the comparisons of the one
in front of those of the other. Neither the grouping of the conjuncts nor parentheses around an
accepted condition are seen.
-/
namespace TripleTable.Shape
open Sql

-- The query with another condition, over the same FROM clause.
def withCondition (q : Query) (condition : Option Expr) : Query :=
  match q.body with
  | .select block => { q with body := .select { block with selection := condition } }
  | _ => q

theorem with_condition_select {q : Query} {block : Select} (body : q.body = .select block)
    (condition : Option Expr) :
    withCondition q condition =
      { q with body := .select { block with selection := condition } } := by
  rw [withCondition, body]

theorem walked_select {q : Query} {base : Shape}
    (plain : ofQuery (withCondition q none) = .ok base) : ∃ block, q.body = .select block := by
  obtain ⟨-, -, found, walked_body, -⟩ := of_query.mp plain
  obtain ⟨ctes, body, tail⟩ := q
  cases body with
  | select block => exact ⟨block, rfl⟩
  | _ => cases walked_body

theorem with_condition_subquery {q : Query} {block : Select} (body : q.body = .select block)
    (plain : (withCondition q none).hasSubquery = false) {e : Expr}
    (simple : e.hasSubquery = false) : (withCondition q (some e)).hasSubquery = false := by
  rw [with_condition_select body] at plain ⊢
  simpa only [Query.hasSubquery, Body.hasSubquery, Select.hasSubquery, selectionHasSubquery, simple]
    using plain

theorem of_select_condition {block : Select} {base : Shape}
    (plain : ofSelect { block with selection := none } = .ok base) (e : Expr) :
    ofSelect { block with selection := some e } =
      (comparisons e).map fun list => { base with predicates := list } := by
  cases added : (block.sources.flatMap leaves).foldlM addRelation
      { projection := block.projection.map Item.text } with
  | error defect => simp [ofSelect, added, bind, Except.bind] at plain
  | ok shape =>
    obtain rfl : shape = base := by
      simpa [ofSelect, added, bind, Except.bind, pure, Except.pure] using plain
    cases read : comparisons e <;>
      simp [ofSelect, added, read, bind, Except.bind, pure, Except.pure, Except.map]

-- A condition adds its comparisons to the shape of the block, or its defect ends the walk.
theorem condition_walked {q : Query} {base : Shape}
    (plain : ofQuery (withCondition q none) = .ok base) {e : Expr}
    (simple : e.hasSubquery = false) :
    ofQuery (withCondition q (some e)) =
      (comparisons e).map fun list => { base with predicates := list } := by
  obtain ⟨block, body⟩ := walked_select plain
  obtain ⟨subquery, ctes, found, same, walked⟩ := of_query.mp plain
  have without := with_condition_subquery body subquery simple
  rw [with_condition_select body] at ctes same
  obtain rfl := Body.select.inj same
  rw [ofQuery, without, with_condition_select body, ctes]
  exact of_select_condition walked e

theorem condition_accepted {q : Query} {base : Shape}
    (plain : ofQuery (withCondition q none) = .ok base) {e : Expr} (simple : e.hasSubquery = false)
    {shape : Shape} :
    ofQuery (withCondition q (some e)) = .ok shape ↔
      ∃ list, comparisons e = .ok list ∧ shape = { base with predicates := list } := by
  rw [condition_walked plain simple]
  cases comparisons e <;> simp [Except.map, eq_comm]

theorem condition_refused {q : Query} {base : Shape}
    (plain : ofQuery (withCondition q none) = .ok base) {e : Expr} (simple : e.hasSubquery = false)
    {defect : ShapeDefect} :
    ofQuery (withCondition q (some e)) = .error defect ↔ comparisons e = .error defect := by
  rw [condition_walked plain simple]
  cases comparisons e <;> simp [Except.map]

/-! ### Both sides of a conjunction -/

theorem comparisons_sides (left right : Expr) :
    comparisons (.binary left .and right) =
      (comparisons left).bind fun front => (comparisons right).map fun back => front ++ back := by
  rw [comparisons]
  cases comparisons left with
  | error defect => rfl
  | ok front => cases comparisons right <;> rfl

theorem sides_subquery {a b : Expr} (simple_a : a.hasSubquery = false)
    (simple_b : b.hasSubquery = false) : (Expr.binary a .and b).hasSubquery = false := by
  rw [Expr.hasSubquery, simple_a, simple_b]
  rfl

section
variable {q : Query} {base : Shape} (plain : ofQuery (withCondition q none) = .ok base)
  {a b : Expr} (simple_a : a.hasSubquery = false) (simple_b : b.hasSubquery = false)

include plain simple_a simple_b

theorem conjunction_accepted {shape : Shape} :
    ofQuery (withCondition q (some (.binary a .and b))) = .ok shape ↔
      ∃ left right, ofQuery (withCondition q (some a)) = .ok left ∧
        ofQuery (withCondition q (some b)) = .ok right ∧
        shape = { base with predicates := left.predicates ++ right.predicates } := by
  rw [condition_accepted plain (sides_subquery simple_a simple_b)]
  simp only [condition_accepted plain simple_a, condition_accepted plain simple_b, comparisons_and]
  constructor
  · intro read
    obtain ⟨list, ⟨front, back, here, there, rfl⟩, rfl⟩ := read
    exact ⟨_, _, ⟨front, here, rfl⟩, ⟨back, there, rfl⟩, rfl⟩
  · intro read
    obtain ⟨left, right, ⟨front, here, rfl⟩, ⟨back, there, rfl⟩, rfl⟩ := read
    exact ⟨front ++ back, ⟨front, back, here, there, rfl⟩, rfl⟩

-- The left side is walked first, so its defect is the one that is reported.
theorem conjunction_refused {defect : ShapeDefect} :
    ofQuery (withCondition q (some (.binary a .and b))) = .error defect ↔
      ofQuery (withCondition q (some a)) = .error defect ∨
        (∃ left, ofQuery (withCondition q (some a)) = .ok left) ∧
          ofQuery (withCondition q (some b)) = .error defect := by
  rw [condition_refused plain (sides_subquery simple_a simple_b),
    condition_refused plain simple_b, condition_walked plain simple_a, comparisons_sides]
  cases comparisons a with
  | error first => simp [Except.bind, Except.map]
  | ok front => cases comparisons b <;> simp [Except.bind, Except.map]

end

/-! ### Grouping and parentheses -/

-- The second condition is the first with its conjuncts grouped in another way or with accepted
-- parts of it put between parentheses or taken out of them.
inductive Rearranged : Expr → Expr → Prop
  | refl (e : Expr) : Rearranged e e
  | symm {e other : Expr} : Rearranged e other → Rearranged other e
  | trans {first second third : Expr} : Rearranged first second → Rearranged second third →
      Rearranged first third
  | rotate (a b c : Expr) :
      Rearranged (.binary a .and (.binary b .and c)) (.binary (.binary a .and b) .and c)
  | wrapped {e : Expr} {list : List Comparison} : comparisons e = .ok list →
      Rearranged e (.nested e)
  | nested {inner other : Expr} : Rearranged inner other → Rearranged (.nested inner) (.nested other)
  | both {left left' right right' : Expr} : Rearranged left left' → Rearranged right right' →
      Rearranged (.binary left .and right) (.binary left' .and right')

theorem accepted_not_disjunction {e : Expr} {list : List Comparison}
    (accepted : comparisons e = .ok list) : isDisjunction e = false := by
  unfold isDisjunction
  split
  · cases accepted
  · rfl

theorem comparisons_parenthesized {e : Expr} (connected : isDisjunction e = false) :
    comparisons (.nested e) = comparisons e := by
  rw [comparisons, connected]
  rfl

-- A disjunction has no parts that could be arranged anew.
theorem rearranged_disjunction {e other : Expr} (same : Rearranged e other) :
    e = other ∨ isDisjunction e = false ∧ isDisjunction other = false := by
  induction same with
  | refl e => exact .inl rfl
  | symm _ ih => exact ih.imp Eq.symm And.symm
  | trans _ _ first second =>
    rcases first with rfl | ⟨one, two⟩
    · exact second
    · rcases second with rfl | ⟨-, three⟩
      · exact .inr ⟨one, two⟩
      · exact .inr ⟨one, three⟩
  | wrapped accepted => exact .inr ⟨accepted_not_disjunction accepted, rfl⟩
  | rotate a b c => exact .inr ⟨rfl, rfl⟩
  | nested _ _ => exact .inr ⟨rfl, rfl⟩
  | both _ _ _ _ => exact .inr ⟨rfl, rfl⟩

theorem rearranged_comparisons {e other : Expr} (same : Rearranged e other) :
    comparisons other = comparisons e := by
  induction same with
  | refl e => rfl
  | symm _ ih => exact ih.symm
  | trans _ _ first second => exact second.trans first
  | rotate a b c =>
    simp only [comparisons_sides]
    cases comparisons a with
    | error defect => rfl
    | ok first =>
      cases comparisons b with
      | error defect => rfl
      | ok second => cases comparisons c <;> simp [Except.bind, Except.map]
  | wrapped accepted => exact comparisons_parenthesized (accepted_not_disjunction accepted)
  | nested same ih =>
    rcases rearranged_disjunction same with rfl | ⟨one, two⟩
    · rfl
    · rw [comparisons_parenthesized one, comparisons_parenthesized two, ih]
  | both _ _ left right => rw [comparisons_sides, comparisons_sides, left, right]

theorem rearranged_subquery {e other : Expr} (same : Rearranged e other) :
    other.hasSubquery = e.hasSubquery := by
  induction same with
  | refl e => rfl
  | symm _ ih => exact ih.symm
  | trans _ _ first second => exact second.trans first
  | rotate a b c => simp only [Expr.hasSubquery, Bool.or_assoc]
  | wrapped _ => rfl
  | nested _ ih => exact ih
  | both _ _ left right => simp only [Expr.hasSubquery, left, right]

theorem rearranged_walked {q : Query} {base : Shape}
    (plain : ofQuery (withCondition q none) = .ok base) {e other : Expr}
    (simple : e.hasSubquery = false) (same : Rearranged e other) :
    ofQuery (withCondition q (some other)) = ofQuery (withCondition q (some e)) := by
  rw [condition_walked plain simple,
    condition_walked plain ((rearranged_subquery same).trans simple), rearranged_comparisons same]

end TripleTable.Shape
