import Std.Data.HashMap
import TripleTable.Proofs.Plan.Answers
import TripleTable.Proofs.Plan.Classification
set_option autoImplicit false

/-!
The columns that variables are bound to: each variable to the first column it stands in, when the
tables are read in the order of their numbers and the subject of each before its object. What a
star projects is this list.
-/
namespace TripleTable.Plan
open Pattern (Term Triple)

/-! ### Reading order -/

def Column.Before (c d : Column) : Prop :=
  c.index < d.index ∨ c.index = d.index ∧ c.role = .subject ∧ d.role = .object

-- The k-th triple has the table with the number k + 1.
def StandsIn (ts : List Triple) (name : Text) (c : Column) : Prop :=
  ∃ k t, ts[k]? = some t ∧ c.index = k + 1 ∧ termAt t c.role = .variable name

structure IsFirst (ts : List Triple) (name : Text) (c : Column) : Prop where
  stands : StandsIn ts name c
  least : ∀ d, StandsIn ts name d → d = c ∨ c.Before d

def sideOf (index : Nat) (t : Triple) (role : Role) : List (Text × Column) :=
  ( Term.variable? (termAt t role)).toList.map fun name => (name, ⟨index, role⟩)

def sidesOf (index : Nat) (t : Triple) : List (Text × Column) :=
  sideOf index t .subject ++ sideOf index t .object

def occurrences (ts : List Triple) : List (Text × Column) :=
  (ts.zipIdx 1).flatMap fun (t, index) => sidesOf index t

section
variable {index : Nat} {t : Triple} {role : Role} {name : Text} {ts : List Triple} {c : Column}

theorem side_of_constant {text : Text} (term : termAt t role = .constant text) :
    sideOf index t role = [] := by
  rw [sideOf, term]
  rfl

theorem side_of_variable (term : termAt t role = .variable name) :
    sideOf index t role = [(name, ⟨index, role⟩)] := by
  rw [sideOf, term]
  rfl

theorem mem_side : (name, c) ∈ sideOf index t role ↔
    termAt t role = .variable name ∧ c = ⟨index, role⟩ := by
  rcases JoinPlan.side_cases t role with ⟨text, term⟩ | ⟨other, term⟩
  · simp [side_of_constant term, term]
  · rw [side_of_variable term, term, List.mem_singleton, Prod.mk.injEq, Term.variable.injEq,
      eq_comm (a := name)]

theorem mem_sides : (name, c) ∈ sidesOf index t ↔
    c.index = index ∧ termAt t c.role = .variable name := by
  obtain ⟨number, role⟩ := c
  rw [sidesOf, List.mem_append, mem_side, mem_side]
  cases role <;> simp [and_comm]

theorem occurrences_next (ts : List Triple) (t : Triple) :
    occurrences (ts ++ [t]) = occurrences ts ++ sidesOf (ts.length + 1) t := by
  simp [occurrences, List.zipIdx_append, Nat.add_comm]

theorem mem_occurrences : (name, c) ∈ occurrences ts ↔ StandsIn ts name c := by
  simp only [occurrences, List.mem_flatMap, Prod.exists, mem_sides, StandsIn,
    List.mk_mem_zipIdx_iff_le_and_getElem?_sub]
  constructor
  · rintro ⟨t, index, ⟨positive, found⟩, rfl, term⟩
    exact ⟨c.index - 1, t, found, by omega, term⟩
  · rintro ⟨k, t, found, number, term⟩
    exact ⟨t, k + 1, ⟨by omega, by simpa using found⟩, number, term⟩

theorem sides_ordered (index : Nat) (t : Triple) :
    (sidesOf index t).Pairwise fun a b => a.2.Before b.2 := by
  rcases JoinPlan.side_cases t .subject with ⟨text, subject⟩ | ⟨name, subject⟩ <;>
    rcases JoinPlan.side_cases t .object with ⟨text', object⟩ | ⟨name', object⟩
  · simp [sidesOf, side_of_constant subject, side_of_constant object]
  · simp [sidesOf, side_of_constant subject, side_of_variable object]
  · simp [sidesOf, side_of_variable subject, side_of_constant object]
  · simp [sidesOf, side_of_variable subject, side_of_variable object, Column.Before]

theorem occurrences_ordered (ts : List Triple) :
    (occurrences ts).Pairwise fun a b => a.2.Before b.2 := by
  induction ts using List.reverseRecOn with
  | nil => exact .nil
  | append_singleton ts t ih =>
    rw [occurrences_next, List.pairwise_append]
    refine ⟨ih, sides_ordered _ t, ?_⟩
    rintro ⟨name, c⟩ old ⟨other, d⟩ new
    obtain ⟨k, s, found, number, -⟩ := mem_occurrences.mp old
    obtain ⟨last, -⟩ := mem_sides.mp new
    have inside := (List.getElem?_eq_some_iff.mp found).1
    exact .inl (by rw [number, last]; omega)

end

/-! ### Binding in order -/

namespace Bindings

def bindAll (b : Bindings) (pairs : List (Text × Column)) : Bindings :=
  pairs.foldl (fun b pair => (b.bind pair.1 pair.2).2) b

variable {b : Bindings} {name : Text}

theorem bind_all_append (b : Bindings) (early late : List (Text × Column)) :
    b.bindAll (early ++ late) = (b.bindAll early).bindAll late :=
  List.foldl_append

theorem bind_known (known : (b.get? name).isSome) (column : Column) :
    (b.bind name column).2 = b := by
  obtain ⟨bound, found⟩ := Option.isSome_iff_exists.mp known
  rw [bind, found]

theorem bind_new (fresh : b.get? name = none) (column : Column) :
    (b.bind name column).2 = b ++ [(name, column)] := by
  rw [bind, fresh]

theorem bind_all_get (b : Bindings) (pairs : List (Text × Column)) (name : Text) :
    (b.bindAll pairs).get? name = (b.get? name).or (pairs.lookup name) := by
  induction pairs generalizing b with
  | nil => simp [bindAll]
  | cons pair rest ih =>
    obtain ⟨key, column⟩ := pair
    have later := ih (b.bind key column).2
    rw [get_bind] at later
    rw [List.lookup_cons]
    refine later.trans ?_
    by_cases same : name = key
    · rw [if_pos same, beq_iff_eq.mpr same, Option.or_assoc]
      rfl
    · rw [if_neg same, beq_eq_false_iff_ne.mpr same, Option.or_none]

theorem bind_all_sublist (b : Bindings) (pairs : List (Text × Column)) :
    (b.bindAll pairs).Sublist (b ++ pairs) := by
  induction pairs generalizing b with
  | nil => simp [bindAll]
  | cons pair rest ih =>
    refine (ih (b.bind pair.1 pair.2).2).trans ?_
    cases found : b.get? pair.1 with
    | some bound =>
      rw [bind_known (by rw [found]; rfl)]
      exact (List.sublist_cons_self pair rest).append_left b
    | none =>
      rw [bind_new found, List.append_assoc]
      exact .refl _

theorem get_none : b.get? name = none ↔ name ∉ b.map Prod.fst := by
  rw [get?, List.lookup_eq_none_iff]
  simp only [bne_iff_ne, List.mem_map, not_exists, not_and]
  exact forall₂_congr fun pair _ => ne_comm

theorem get_of_mem (distinct : (b.map Prod.fst).Nodup) {column : Column}
    (member : (name, column) ∈ b) : b.get? name = some column := by
  obtain ⟨before, behind, rfl⟩ := List.append_of_mem member
  refine List.lookup_eq_some_iff.mpr ⟨before, behind, rfl, fun pair earlier => ?_⟩
  rw [List.map_append, List.map_cons, List.nodup_append] at distinct
  exact bne_iff_ne.mpr (distinct.2.2 pair.1 (List.mem_map_of_mem earlier) name (by simp)).symm

theorem mem_of_get {column : Column} (found : b.get? name = some column) : (name, column) ∈ b := by
  obtain ⟨before, behind, rfl, -⟩ := List.lookup_eq_some_iff.mp found
  simp

theorem bind_distinct (distinct : (b.map Prod.fst).Nodup) (name : Text) (column : Column) :
    ((b.bind name column).2.map Prod.fst).Nodup := by
  cases found : b.get? name with
  | some bound =>
    rw [bind_known (by rw [found]; rfl)]
    exact distinct
  | none =>
    have longer := distinct.concat (get_none.mp found)
    rwa [List.concat_eq_append, ← List.map_singleton (f := Prod.fst) (a := (name, column)),
      ← List.map_append, ← bind_new found] at longer

theorem bind_all_distinct (distinct : (b.map Prod.fst).Nodup) (pairs : List (Text × Column)) :
    ((b.bindAll pairs).map Prod.fst).Nodup := by
  induction pairs generalizing b with
  | nil => exact distinct
  | cons pair rest ih => exact ih (bind_distinct distinct pair.1 pair.2)

end Bindings

structure ListsFirst (ts : List Triple) (pairs : List (Text × Column)) : Prop where
  once : (pairs.map Prod.fst).Nodup
  complete : ∀ name, name ∈ pairs.map Prod.fst ↔ ∃ t ∈ ts, name ∈ t.variableNames
  first : ∀ name c, (name, c) ∈ pairs → IsFirst ts name c
  ordered : pairs.Pairwise fun a b => a.2.Before b.2

theorem occurs_stands (ts : List Triple) (name : Text) :
    (∃ t ∈ ts, name ∈ t.variableNames) ↔ ∃ c, StandsIn ts name c := by
  simp only [variable_names, StandsIn]
  constructor
  · rintro ⟨t, member, role, term⟩
    obtain ⟨k, found⟩ := List.mem_iff_getElem?.mp member
    exact ⟨⟨k + 1, role⟩, k, t, found, rfl, term⟩
  · rintro ⟨c, k, t, found, -, term⟩
    exact ⟨t, List.mem_of_getElem? found, c.role, term⟩

-- The first of the pairs with a name is the least, because they stand in reading order.
theorem lookup_first {ts : List Triple} {name : Text} {c : Column}
    (found : (occurrences ts).lookup name = some c) : IsFirst ts name c := by
  obtain ⟨before, behind, split, others⟩ := List.lookup_eq_some_iff.mp found
  have ordered := occurrences_ordered ts
  rw [split, List.pairwise_append, List.pairwise_cons] at ordered
  refine ⟨mem_occurrences.mp (by simp [split]), fun d stands => ?_⟩
  have member := mem_occurrences.mpr stands
  rw [split, List.mem_append, List.mem_cons] at member
  rcases member with earlier | same | later
  · exact absurd rfl (bne_iff_ne.mp (others _ earlier))
  · exact .inl (Prod.mk.inj same).2
  · exact .inr (ordered.2.1.1 _ later)

theorem lists_first (ts : List Triple) : ListsFirst ts (Bindings.bindAll [] (occurrences ts)) := by
  have distinct := Bindings.bind_all_distinct (b := []) .nil (occurrences ts)
  have found : ∀ name, Bindings.get? (.bindAll [] (occurrences ts)) name =
      (occurrences ts).lookup name := Bindings.bind_all_get [] _
  have first : ∀ name c, (name, c) ∈ Bindings.bindAll [] (occurrences ts) → IsFirst ts name c := by
    intro name c member
    have bound := Bindings.get_of_mem distinct member
    rw [found] at bound
    exact lookup_first bound
  refine ⟨distinct, fun name => ?_, first, ?_⟩
  · rw [occurs_stands]
    constructor
    · intro listed
      obtain ⟨⟨_, c⟩, member, rfl⟩ := List.mem_map.mp listed
      exact ⟨c, (first _ c member).stands⟩
    · rintro ⟨c, stands⟩
      by_contra absent
      have unbound := Bindings.get_none.mpr absent
      rw [found, List.lookup_eq_none_iff] at unbound
      exact absurd rfl (bne_iff_ne.mp (unbound _ (mem_occurrences.mpr stands)))
  · exact (occurrences_ordered ts).sublist (Bindings.bind_all_sublist [] _)

/-! ### Names in order beside an index -/

-- Names are hashed as strings.
local instance hashableName : Hashable Text := ⟨fun name => hash (String.ofList name)⟩

-- The bindings as they are stored: the order in which names were bound is kept apart from the
-- columns they are bound to.
structure Register where
  order : List Text := []
  index : Std.HashMap Text Column := ∅

namespace Register

def bind (s : Register) (name : Text) (column : Column) : (Column × Bool) × Register :=
  match s.index[name]? with
  | some bound => ((bound, false), s)
  | none =>
    ((column, true), { order := s.order ++ [name], index := s.index.insert name column })

def pairs (s : Register) : List (Text × Column) :=
  s.order.filterMap fun name => s.index[name]?.map fun column => (name, column)

def bindAll (s : Register) (pairs : List (Text × Column)) : Register :=
  pairs.foldl (fun s pair => (s.bind pair.1 pair.2).2) s

-- The order and the index say the same as one list of names with their columns.
structure Keeps (s : Register) (b : Bindings) : Prop where
  order : s.order = b.map Prod.fst
  index : ∀ name, s.index[name]? = b.get? name
  distinct : (b.map Prod.fst).Nodup

variable {s : Register} {b : Bindings}

theorem empty_keeps : Keeps {} [] :=
  ⟨rfl, fun _ => Std.HashMap.getElem?_empty, .nil⟩

theorem bind_keeps (keeps : s.Keeps b) (name : Text) (column : Column) :
    (s.bind name column).1 = (b.bind name column).1 ∧
      (s.bind name column).2.Keeps (b.bind name column).2 := by
  have distinct := Bindings.bind_distinct keeps.distinct name column
  cases found : b.get? name with
  | some bound =>
    rw [bind, Bindings.bind, keeps.index, found]
    exact ⟨rfl, keeps⟩
  | none =>
    have next := Bindings.get_bind b name
    simp only [Bindings.bind_new found] at distinct next
    rw [bind, Bindings.bind, keeps.index, found]
    refine ⟨rfl, by simp [keeps.order], fun other => ?_, distinct⟩
    rw [Std.HashMap.getElem?_insert, next, keeps.index]
    by_cases same : other = name
    · subst same
      simp [found]
    · simp [same, Ne.symm same]

theorem bind_all_keeps (keeps : s.Keeps b) (pairs : List (Text × Column)) :
    (s.bindAll pairs).Keeps (b.bindAll pairs) := by
  induction pairs generalizing s b with
  | nil => exact keeps
  | cons pair rest ih => exact ih (bind_keeps keeps pair.1 pair.2).2

theorem keeps_pairs (keeps : s.Keeps b) : s.pairs = b := by
  have found : ∀ pair ∈ b, s.index[pair.1]?.map (fun column => (pair.1, column)) = some pair := by
    intro pair member
    rw [keeps.index, Bindings.get_of_mem keeps.distinct member]
    rfl
  rw [pairs, keeps.order, List.filterMap_map]
  exact (List.filterMap_congr found).trans List.filterMap_some

end Register

/-! ### The sides that a plan binds -/

-- All but the side that the entry is joined on, whose variable is bound already.
def boundSides (entry : Entry) (t : Triple) : List (Text × Column) :=
  (sidesOf entry.index t).filter fun pair => entry.join.all fun c => c.right ≠ pair.2

namespace JoinPlan

def boundColumns (p : JoinPlan) (ts : List Triple) : List (Text × Column) :=
  (p.entries.zip ts).flatMap fun (entry, t) => boundSides entry t

-- Whether or not the side of a join is handed over too, the same bindings come out.
structure Binds (p : JoinPlan) (ts : List Triple) : Prop where
  bound : p.bindings = Bindings.bindAll [] (p.boundColumns ts)
  read : p.bindings = Bindings.bindAll [] (occurrences ts)

theorem bind_side_binds (t : Triple) (role : Role) (state : JoinPlan × Entry) :
    (bindSide t role state).1.bindings =
      state.1.bindings.bindAll (sideOf state.2.index t role) := by
  obtain ⟨p, entry⟩ := state
  rcases side_cases t role with ⟨text, term⟩ | ⟨name, term⟩
  · rw [bind_side_constant term, side_of_constant term]
    rfl
  · rw [bind_side_variable term, side_of_variable term]
    rfl

theorem bound_columns_next {p next : JoinPlan} {ts : List Triple} {t : Triple} {entry : Entry}
    (entries : next.entries = p.entries ++ [entry]) (length : p.entries.length = ts.length) :
    next.boundColumns (ts ++ [t]) = p.boundColumns ts ++ boundSides entry t := by
  rw [boundColumns, entries, List.zip_append length]
  simp [boundColumns]

theorem side_kept (index : Nat) (t : Triple) (role side : Role) :
    (sideOf index t side).filter (fun pair => (⟨index, role⟩ : Column) ≠ pair.2) =
      if side = role then [] else sideOf index t side := by
  rcases side_cases t side with ⟨text, term⟩ | ⟨name, term⟩
  · simp [side_of_constant term]
  · rw [side_of_variable term]
    by_cases same : side = role
    · simp [same]
    · simp [same, Ne.symm same]

theorem bound_sides_joined {entry : Entry} {t : Triple} {role : Role} {column : Column}
    (join : entry.join = some ⟨column, ⟨entry.index, role⟩⟩) :
    boundSides entry t = sideOf entry.index t role.opposite := by
  simp only [boundSides, sidesOf, join, Option.all_some, List.filter_append, side_kept]
  cases role <;> simp [Role.opposite]

theorem bound_sides_anchor {entry : Entry} {t : Triple} (join : entry.join = none) :
    boundSides entry t = sidesOf entry.index t := by
  simp [boundSides, join]

theorem bind_joined {p : JoinPlan} {t : Triple} {role : Role} {column : Column}
    (side : p.joinSide? t = some (role, column)) (index : Nat) :
    p.bindings.bindAll (sidesOf index t) = p.bindings.bindAll (sideOf index t role.opposite) := by
  obtain ⟨name, term, found⟩ := join_side_bound side
  rw [sidesOf, Bindings.bind_all_append]
  cases role with
  | subject =>
    have known : p.bindings.bindAll [(name, ⟨index, .subject⟩)] = p.bindings :=
      Bindings.bind_known (by rw [found]; rfl) _
    rw [side_of_variable term, known]
    rfl
  | object =>
    have later := Bindings.bind_all_get p.bindings (sideOf index t .subject) name
    rw [found, Option.some_or] at later
    rw [side_of_variable term]
    exact Bindings.bind_known (by rw [later]; rfl) _

theorem binds_next {p next : JoinPlan} {ts : List Triple} {t : Triple} {entry : Entry}
    (before : Binds p ts) (length : p.entries.length = ts.length)
    (entries : next.entries = p.entries ++ [entry])
    (bound : next.bindings = p.bindings.bindAll (boundSides entry t))
    (read : next.bindings = p.bindings.bindAll (sidesOf p.nextIndex t)) :
    Binds next (ts ++ [t]) := by
  constructor
  · rw [bound, before.bound, bound_columns_next entries length, Bindings.bind_all_append]
  · rw [read, before.read, occurrences_next, nextIndex, length, Bindings.bind_all_append]

theorem place_anchor_binds (t : Triple) : Binds (placeAnchor {} t) [t] := by
  let start : JoinPlan × Entry := ({}, newEntry {} t none)
  let first := bindSide t .subject start
  obtain ⟨-, index₀, join₀⟩ := bind_side_entry t .subject start
  obtain ⟨-, index₁, join₁⟩ := bind_side_entry t .object first
  have entries := (bind_side_entries t .object first).trans (bind_side_entries t .subject start)
  have read : (placeAnchor {} t).bindings = Bindings.bindAll [] (sidesOf 1 t) := by
    have second := bind_side_binds t .object first
    rw [index₀, bind_side_binds t .subject start] at second
    rw [sidesOf, Bindings.bind_all_append]
    exact second
  have before : Binds {} [] := ⟨rfl, rfl⟩
  refine binds_next before rfl
    (congrArg (· ++ [(bindSide t .object first).2]) entries) ?_ read
  rw [bound_sides_anchor (join₁.trans join₀), index₁.trans index₀]
  exact read

theorem try_place_binds {p next : JoinPlan} {ts : List Triple} {t : Triple}
    (before : Binds p ts) (length : p.entries.length = ts.length)
    (step : p.tryPlace? t = some next) : Binds next (ts ++ [t]) := by
  obtain ⟨⟨role, column⟩, side, rfl⟩ := Option.map_eq_some_iff.mp step
  let start : JoinPlan × Entry := (p, p.newEntry t (some ⟨column, ⟨p.nextIndex, role⟩⟩))
  obtain ⟨-, index, join⟩ := bind_side_entry t role.opposite start
  have bindings := bind_side_binds t role.opposite start
  refine binds_next before length
    (congrArg (· ++ [(bindSide t role.opposite start).2]) (bind_side_entries t role.opposite start))
    ?_ (bindings.trans (bind_joined side p.nextIndex).symm)
  have joined : (bindSide t role.opposite start).2.join =
      some ⟨column, ⟨(bindSide t role.opposite start).2.index, role⟩⟩ := by
    rw [join, index]
    rfl
  rw [bound_sides_joined joined, index]
  exact bindings

theorem run_binds {p q : JoinPlan} {ts : List Triple} {placed : List (Triple × Nat)}
    (before : Placed p ts) (binds : Binds p ts) (run : Run p placed q) :
    Binds q (ts ++ placed.map Prod.fst) := by
  induction run generalizing ts with
  | done => simpa using binds
  | step step _ ih =>
    have next := try_place_binds binds (placed_length before) step
    simpa using ih (try_place_placed before step) next

end JoinPlan

/-! ### The plan as a whole -/

-- The triples with their positions, in the order in which they are placed.
def PlacedAs (triples : List Triple) (ordered : List (Triple × Nat)) (plan : JoinPlan) : Prop :=
  ordered.Perm triples.zipIdx ∧ ∃ anchor placed, ordered = (anchor, 0) :: placed ∧
    JoinPlan.Run (JoinPlan.placeAnchor {} anchor) placed plan

theorem resolve_placed_as {triples : List Triple} {plan : JoinPlan}
    (resolved : resolve triples = .ok plan) : ∃ ordered, PlacedAs triples ordered plan := by
  obtain ⟨anchor, rest, rfl, -, -, -, passed⟩ := resolve_accepted resolved
  obtain ⟨placed, run, perm⟩ := JoinPlan.passes_run passed
  exact ⟨(anchor, 0) :: placed, perm.cons _, anchor, placed, rfl, run⟩

section
variable {triples : List Triple} {ordered : List (Triple × Nat)} {plan : JoinPlan}
  (as : PlacedAs triples ordered plan)
include as

theorem placed_as_length : (ordered.map Prod.fst).length = triples.length := by
  simpa using as.1.length_eq

theorem placed_as_placed : JoinPlan.Placed plan (ordered.map Prod.fst) := by
  obtain ⟨-, anchor, placed, rfl, run⟩ := as
  exact JoinPlan.run_placed (JoinPlan.place_anchor_placed anchor) run

theorem placed_as_binds : JoinPlan.Binds plan (ordered.map Prod.fst) := by
  obtain ⟨-, anchor, placed, rfl, run⟩ := as
  exact JoinPlan.run_binds (JoinPlan.place_anchor_placed anchor)
    (JoinPlan.place_anchor_binds anchor) run

theorem placed_as_entries : plan.entries.map Entry.index = List.range' 1 triples.length ∧
    plan.entries.map Entry.table = (ordered.map Prod.fst).map tableOf := by
  have placed := placed_as_placed as
  rw [← placed_as_length as]
  exact ⟨placed.numbered, placed.tables⟩

theorem placed_as_first : ListsFirst (ordered.map Prod.fst) plan.bindings := by
  rw [(placed_as_binds as).read]
  exact lists_first _

end

def ProjectionItem.bound (item : ProjectionItem) : Text × Column := (item.variableName, item.column)

-- The stored order and index, filled with the sides that are bound one after the other, give the
-- same list as the star: every variable once, with the first column it stands in.
theorem star_lists_variables {triples : List Triple} {plan : JoinPlan}
    (resolved : resolve triples = .ok plan) :
    (∃ ordered, PlacedAs triples ordered plan) ∧ ∀ ordered, PlacedAs triples ordered plan →
      (plan.entries.map Entry.index = List.range' 1 triples.length ∧
        plan.entries.map Entry.table = (ordered.map Prod.fst).map tableOf) ∧
      ∃ items, projectToken plan.bindings ['*'] = .ok items ∧
        ListsFirst (ordered.map Prod.fst) (items.map ProjectionItem.bound) ∧
        (Register.bindAll {} (plan.boundColumns (ordered.map Prod.fst))).pairs =
          items.map ProjectionItem.bound := by
  refine ⟨resolve_placed_as resolved, fun ordered as => ?_⟩
  have star : projectToken plan.bindings ['*'] =
      .ok (plan.bindings.map fun bound => ⟨bound.1, bound.2⟩) := by
    rw [projectToken, if_neg (by decide), if_pos rfl]
  have listed : (plan.bindings.map fun bound =>
      (⟨bound.1, bound.2⟩ : ProjectionItem)).map ProjectionItem.bound = plan.bindings := by
    rw [List.map_map]
    exact List.map_id _
  refine ⟨placed_as_entries as, _, star, ?_, ?_⟩
  · rw [listed]
    exact placed_as_first as
  · rw [listed, (placed_as_binds as).bound]
    exact Register.keeps_pairs (Register.bind_all_keeps Register.empty_keeps _)

theorem cycle_star_listed :
    resolve cycle = .ok cyclePlan ∧ ∃ ordered, PlacedAs cycle ordered cyclePlan ∧
      ListsFirst (ordered.map Prod.fst)
        [(['x'], ⟨1, .subject⟩), (['y'], ⟨1, .object⟩), (['z'], ⟨2, .object⟩)] := by
  have resolved : resolve cycle = .ok cyclePlan := rfl
  obtain ⟨⟨ordered, as⟩, every⟩ := star_lists_variables resolved
  obtain ⟨-, items, projected, first, -⟩ := every ordered as
  obtain rfl := Except.ok.inj projected
  exact ⟨resolved, ordered, as, first⟩

end TripleTable.Plan
