import TripleTable.Proofs.Plan.FirstColumns
set_option autoImplicit false

/-!
Conditions look back: a table is joined to columns of tables that stand before it, each the first
column of the variable in question. Only a triple that has one variable on both sides compares two
columns of the same table.
-/
namespace TripleTable.Plan
open Pattern (Term Triple)

structure LooksBack (b : Bindings) (t : Triple) (entry : Entry) : Prop where
  join : ∀ c ∈ entry.join, c.right.index = entry.index ∧ c.left.index < entry.index
  extra : ∀ c ∈ entry.extra, c.right.index = entry.index ∧
    (c.left.index < entry.index ∨
      c.left.index = entry.index ∧ ∃ name, ∀ role, termAt t role = .variable name)
  first : ∀ c ∈ entry.join.toList ++ entry.extra,
    ∃ name, termAt t c.right.role = .variable name ∧ b.get? name = some c.left

namespace JoinPlan
variable {p next : JoinPlan} {t : Triple}

theorem looks_back_extended {b later : Bindings} {entry : Entry} (extended : Extends b later)
    (looks : LooksBack b t entry) : LooksBack later t entry := by
  refine ⟨looks.join, looks.extra, fun c member => ?_⟩
  obtain ⟨name, term, found⟩ := looks.first c member
  exact ⟨name, term, extended name c.left found⟩

theorem both_sides {role : Role} {name : Text} (here : termAt t role = .variable name)
    (there : termAt t role.opposite = .variable name) (side : Role) :
    termAt t side = .variable name := by
  cases role <;> cases side <;> assumption

-- What is bound when a side is reached was bound by an earlier table, or by the other side.
theorem bind_side_looks_back {role : Role} {state : JoinPlan × Entry}
    (looks : LooksBack state.1.bindings t state.2)
    (earlier : ∀ name column, state.1.bindings.get? name = some column →
      column.index < state.2.index ∨
        column.index = state.2.index ∧ termAt t role.opposite = .variable name) :
    LooksBack (bindSide t role state).1.bindings t (bindSide t role state).2 := by
  have kept := looks_back_extended (bind_side_extends t role state) looks
  have extended := bind_side_extends t role state
  obtain ⟨p, entry⟩ := state
  rcases side_cases t role with ⟨text, term⟩ | ⟨name, term⟩
  · rw [bind_side_constant term] at kept ⊢
    exact kept
  · rw [bind_side_variable term] at kept extended ⊢
    refine ⟨kept.join, List.forall_mem_append.mpr ⟨kept.extra, ?_⟩, ?_⟩
    · intro c member
      obtain ⟨first, found, rfl⟩ := Option.map_eq_some_iff.mp (Option.mem_toList.mp member)
      refine ⟨rfl, (earlier name first found).imp_right fun ⟨same, other⟩ => ?_⟩
      exact ⟨same, name, both_sides term other⟩
    · rw [← List.append_assoc]
      refine List.forall_mem_append.mpr ⟨kept.first, fun c member => ?_⟩
      obtain ⟨first, found, rfl⟩ := Option.map_eq_some_iff.mp (Option.mem_toList.mp member)
      exact ⟨name, term, extended name first found⟩

theorem place_anchor_looks_back (t : Triple) :
    List.Forall₂ (LooksBack (placeAnchor {} t).bindings) [t] (placeAnchor {} t).entries := by
  let start : JoinPlan × Entry := ({}, newEntry {} t none)
  let first := bindSide t .subject start
  have entries := (bind_side_entries t .object first).trans (bind_side_entries t .subject start)
  have begins : LooksBack start.1.bindings t start.2 := by
    constructor <;> simp [start, newEntry]
  have subject : LooksBack first.1.bindings t first.2 := by
    refine bind_side_looks_back begins fun name column found => ?_
    cases found
  have object : LooksBack (bindSide t .object first).1.bindings t (bindSide t .object first).2 := by
    refine bind_side_looks_back subject fun name column found => ?_
    rcases bind_side_fresh found with old | ⟨rfl, term⟩
    · cases old
    · exact .inr ⟨(bind_side_entry t .subject start).2.1.symm, term⟩
  rw [placeAnchor, addEntry, entries]
  exact .cons object .nil

theorem try_place_looks_back {ts : List Triple} (before : Placed p ts)
    (looks : List.Forall₂ (LooksBack p.bindings) ts p.entries) (step : p.tryPlace? t = some next) :
    List.Forall₂ (LooksBack next.bindings) (ts ++ [t]) next.entries := by
  obtain ⟨⟨role, column⟩, side, rfl⟩ := Option.map_eq_some_iff.mp step
  obtain ⟨name, term, found⟩ := join_side_bound side
  let start : JoinPlan × Entry := (p, p.newEntry t (some ⟨column, ⟨p.nextIndex, role⟩⟩))
  have earlier : ∀ other bound, p.bindings.get? other = some bound → bound.index < p.nextIndex :=
    fun other bound known => Nat.lt_succ_of_le (bound_within before known).2
  have begins : LooksBack start.1.bindings t start.2 := by
    refine ⟨?_, by simp [start, newEntry], ?_⟩
    · simp [start, newEntry, earlier name column found]
    · simp [start, newEntry, term, found]
  let last := bindSide t role.opposite start
  have looks_last : LooksBack last.1.bindings t last.2 :=
    bind_side_looks_back begins fun other bound known => .inl (earlier other bound known)
  have older := looks.imp fun s entry =>
    looks_back_extended (t := s) (bind_side_extends t role.opposite start)
  show List.Forall₂ (LooksBack last.1.bindings) (ts ++ [t]) (last.1.entries ++ [last.2])
  rw [bind_side_entries t role.opposite start]
  exact List.rel_append older (.cons looks_last .nil)

theorem run_looks_back {q : JoinPlan} {ts : List Triple} {placed : List (Triple × Nat)}
    (before : Placed p ts) (looks : List.Forall₂ (LooksBack p.bindings) ts p.entries)
    (run : Run p placed q) :
    List.Forall₂ (LooksBack q.bindings) (ts ++ placed.map Prod.fst) q.entries := by
  induction run generalizing ts with
  | done => simpa using looks
  | step step _ ih =>
    simpa using ih (try_place_placed before step) (try_place_looks_back before looks step)

end JoinPlan

theorem placed_as_looks_back {triples : List Triple} {ordered : List (Triple × Nat)}
    {plan : JoinPlan} (as : PlacedAs triples ordered plan) :
    List.Forall₂ (LooksBack plan.bindings) (ordered.map Prod.fst) plan.entries := by
  obtain ⟨-, anchor, placed, rfl, run⟩ := as
  exact JoinPlan.run_looks_back (JoinPlan.place_anchor_placed anchor)
    (JoinPlan.place_anchor_looks_back anchor) run

-- The left side of a condition is what its variable is bound to, and that is the first column of it.
theorem conditions_look_back {triples : List Triple} {plan : JoinPlan}
    (resolved : resolve triples = .ok plan) :
    (plan.Within triples.length ∧ ∀ bound ∈ plan.bindings, bound.2.Within triples.length) ∧
      (∃ ordered, PlacedAs triples ordered plan) ∧ ∀ ordered, PlacedAs triples ordered plan →
        (plan.entries.map Entry.index = List.range' 1 triples.length ∧
          plan.entries.map Entry.table = (ordered.map Prod.fst).map tableOf) ∧
        List.Forall₂ (LooksBack plan.bindings) (ordered.map Prod.fst) plan.entries ∧
        ∀ name c, plan.bindings.get? name = some c → IsFirst (ordered.map Prod.fst) name c := by
  obtain ⟨ordered, as⟩ := resolve_placed_as resolved
  have placed := placed_as_placed as
  have size : plan.entries.length = triples.length :=
    (JoinPlan.placed_length placed).trans (placed_as_length as)
  refine ⟨⟨size ▸ placed.within, fun bound member => ?_⟩, ⟨ordered, as⟩, fun other again => ?_⟩
  · rw [← size]
    exact JoinPlan.bound_within placed
      (Bindings.get_of_mem (placed_as_first as).once member)
  · refine ⟨placed_as_entries again, placed_as_looks_back again, fun name c found => ?_⟩
    exact (placed_as_first again).first name c (Bindings.mem_of_get found)

-- The first table is compared with itself, as its triple has one variable on both sides; the other
-- one looks back to it twice.
def knot : List Triple := [
  ⟨.variable ['x'], .constant ['p'], .variable ['x']⟩,
  ⟨.variable ['x'], .constant ['q'], .variable ['x']⟩]

def knotPlan : JoinPlan where
  entries := [
    ⟨['p'], 1, none, [⟨⟨1, .subject⟩, ⟨1, .object⟩⟩]⟩,
    ⟨['q'], 2, some ⟨⟨1, .subject⟩, ⟨2, .subject⟩⟩, [⟨⟨1, .subject⟩, ⟨2, .object⟩⟩]⟩]
  bindings := [(['x'], ⟨1, .subject⟩)]

theorem knot_looks_back :
    resolve knot = .ok knotPlan ∧ knotPlan.Within 2 ∧ ∃ ordered, PlacedAs knot ordered knotPlan ∧
      List.Forall₂ (LooksBack knotPlan.bindings) (ordered.map Prod.fst) knotPlan.entries ∧
      IsFirst (ordered.map Prod.fst) ['x'] ⟨1, .subject⟩ := by
  have resolved : resolve knot = .ok knotPlan := rfl
  obtain ⟨⟨within, -⟩, ⟨ordered, as⟩, every⟩ := conditions_look_back resolved
  obtain ⟨-, looks, first⟩ := every ordered as
  exact ⟨resolved, within, ordered, as, looks, first _ _ rfl⟩

end TripleTable.Plan
