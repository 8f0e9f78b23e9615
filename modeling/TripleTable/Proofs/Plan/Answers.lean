import Mathlib.Data.List.Perm.Basic
import Mathlib.Logic.Equiv.Basic
import Mathlib.Data.Fin.SuccPred
import TripleTable.Plan.SelectPlan
import TripleTable.Proofs.Plan.Placement
set_option autoImplicit false

/-!
What a select plan and the triples it was made of ask of a database, and that they ask the same:
the rows that satisfy a plan are those that solve its triples, each counted once.
-/
namespace TripleTable.Plan
open Pattern (Triple)

structure Row where
  subject : Text
  object : Text
deriving DecidableEq, Repr

def Row.at (row : Row) : Role → Text
  | .subject => row.subject
  | .object => row.object

abbrev Database := Text → List Row

abbrev Choice (db : Database) {ι : Type} (name : ι → Text) : Type :=
  (k : ι) → Fin (db (name k)).length

namespace Choice
variable {db : Database} {ι κ : Type} {name : ι → Text} {other : κ → Text}

def row (c : Choice db name) (k : ι) : Row := (db (name k)).get (c k)

-- The same rows for the same tables, numbered otherwise.
def renumber (σ : ι ≃ κ) (same : ∀ k, name k = other (σ k)) : Choice db name ≃ Choice db other :=
  Equiv.piCongr σ fun k => finCongr (congrArg (fun table => (db table).length) (same k))

theorem renumber_row (σ : ι ≃ κ) (same : ∀ k, name k = other (σ k)) (c : Choice db name) (k : ι) :
    (renumber σ same c).row (σ k) = c.row k := by
  have cast : ∀ (table : Text) (eq : name k = table),
      (db table).get (finCongr (congrArg (fun table => (db table).length) eq) (c k)) =
        (db (name k)).get (c k) := by
    rintro _ rfl
    rfl
  rw [row, renumber, Equiv.piCongr_apply_apply]
  exact cast _ (same k)

end Choice

def valueOf (env : Text → Text) (t : Triple) (role : Role) : Text :=
  match termAt t role with
  | .constant text => literalOf (tableOf t) role text
  | .variable name => env name

def tripleTable (triples : List Triple) (k : Fin triples.length) : Text := tableOf (triples.get k)

def Solves (triples : List Triple) (rows : Fin triples.length → Row) (env : Text → Text) : Prop :=
  ∀ k role, (rows k).at role = valueOf env (triples.get k) role

namespace SelectPlan

-- Aliases count the tables from one in the order in which the statement names them, so a row
-- is found by its place.
def tables (p : SelectPlan) : List NumberedTable := p.source :: p.joins.map Join.source

def tableName (p : SelectPlan) (k : Fin p.tables.length) : Text := (p.tables.get k).table

def cell? (p : SelectPlan) (rows : Fin p.tables.length → Row) (column : Column) : Option Text :=
  (p.tables.findFinIdx? fun t => t.index == column.index).map fun k => (rows k).at column.role

def ConditionHolds (p : SelectPlan) (rows : Fin p.tables.length → Row) (c : Condition) : Prop :=
  ∃ value, p.cell? rows c.left = some value ∧ p.cell? rows c.right = some value

def FilterHolds (p : SelectPlan) (rows : Fin p.tables.length → Row) : Filter → Prop
  | .columns condition => p.ConditionHolds rows condition
  | .constant filter => p.cell? rows filter.column = some filter.literal

def Holds (p : SelectPlan) (rows : Fin p.tables.length → Row) : Prop :=
  (∀ join ∈ p.joins, ∀ c ∈ join.on, p.ConditionHolds rows c) ∧
    ∀ filter ∈ p.filters, p.FilterHolds rows filter

def answer (p : SelectPlan) (rows : Fin p.tables.length → Row) : List (Option Text) :=
  p.items.map fun item => p.cell? rows item.column

end SelectPlan

namespace JoinPlan

theorem placed_reads {p : JoinPlan} {ts : List Triple} (placed : Placed p ts)
    {value : Column → Text} {env : Text → Text}
    (explains : ∀ k t, ts[k]? = some t → ∀ role, value ⟨k + 1, role⟩ = valueOf env t role)
    {name : Text} {column : Column} (found : p.bindings.get? name = some column) :
    value column = env name := by
  obtain ⟨k, t, at_k, index, term⟩ := placed.bound name column found
  have here := explains k t at_k column.role
  rw [← index] at here
  simpa only [valueOf, term] using here

-- A plan holds for a value of the columns just when one assignment explains the value of every
-- column of its triples.
theorem placed_holds {p : JoinPlan} {ts : List Triple} (placed : Placed p ts)
    (value : Column → Text) :
    p.Holds value ↔
      ∃ env, ∀ k t, ts[k]? = some t → ∀ role, value ⟨k + 1, role⟩ = valueOf env t role := by
  rw [placed.meaning value]
  constructor
  · intro agrees
    refine ⟨fun name => ((p.bindings.get? name).map value).getD [], fun k t at_k role => ?_⟩
    have side := agrees k t at_k role
    rcases side_cases t role with ⟨text, term⟩ | ⟨name, term⟩
    · rw [side_agrees_constant term] at side
      simpa only [valueOf, term] using side
    · have knows := placed.known t (List.mem_of_getElem? at_k) role name term
      obtain ⟨column, found⟩ := Option.isSome_iff_exists.mp knows
      rw [side_agrees_variable term found] at side
      simpa [valueOf, term, found] using side
  · rintro ⟨env, explains⟩ k t at_k role
    have here := explains k t at_k role
    rcases side_cases t role with ⟨text, term⟩ | ⟨name, term⟩
    · rw [side_agrees_constant term]
      simpa only [valueOf, term] using here
    · have knows := placed.known t (List.mem_of_getElem? at_k) role name term
      obtain ⟨column, found⟩ := Option.isSome_iff_exists.mp knows
      rw [side_agrees_variable term found, placed_reads placed explains found]
      simpa only [valueOf, term] using here

end JoinPlan

namespace SelectPlan

theorem joins_of_entries {entries : List Entry} (joined : ∀ entry ∈ entries, entry.join.isSome) :
    ∃ joins, entries.mapM Join.ofEntry = .ok joins ∧
      joins.map Join.source = entries.map (fun entry => ⟨entry.table, entry.index⟩) ∧
      joins.map Join.on = entries.map (fun entry => entry.join.toList ++ entry.extra) := by
  induction entries with
  | nil => exact ⟨[], rfl, rfl, rfl⟩
  | cons entry entries ih =>
    obtain ⟨first, others⟩ := List.forall_mem_cons.mp joined
    obtain ⟨joins, mapped, sources, ons⟩ := ih others
    obtain ⟨condition, join⟩ := Option.isSome_iff_exists.mp first
    refine ⟨⟨⟨entry.table, entry.index⟩, condition :: entry.extra⟩ :: joins, ?_, ?_, ?_⟩
    · simp [List.mapM_cons, Join.ofEntry, join, mapped, bind, Except.bind, pure, Except.pure]
    · simp [sources]
    · simp [ons, join]

-- The plan arranges the entries of a join plan: the conditions of the first become filters,
-- the others stay with their table.
theorem of_query_plan {q : QueryPlan} {root : Entry} {rest : List Entry}
    (items : q.projection ≠ []) (entries : q.joinPlan.entries = root :: rest)
    (joined : ∀ entry ∈ rest, entry.join.isSome) :
    ∃ p, SelectPlan.ofQueryPlan q = .ok p ∧ p.distinct = q.distinct ∧ p.items = q.projection ∧
      p.tables = q.joinPlan.entries.map (fun entry => ⟨entry.table, entry.index⟩) ∧
      p.joins.map Join.on = rest.map (fun entry => entry.join.toList ++ entry.extra) ∧
      p.filters = root.extra.map .columns ++ q.joinPlan.filters.map .constant := by
  obtain ⟨joins, mapped, sources, ons⟩ := joins_of_entries joined
  refine ⟨⟨q.distinct, q.projection, ⟨root.table, root.index⟩, joins,
    root.extra.map .columns ++ q.joinPlan.filters.map .constant⟩, ?_, rfl, rfl, ?_, ons, rfl⟩
  · simp [ofQueryPlan, items, entries, mapped, bind, Except.bind, pure, Except.pure]
  · simp [tables, entries, sources]

section
variable {p : SelectPlan} (rows : Fin p.tables.length → Row)

def value (p : SelectPlan) (rows : Fin p.tables.length → Row) (column : Column) : Text :=
  (p.cell? rows column).getD []

theorem cell_numbered (numbered : p.tables.map NumberedTable.index = List.range' 1 p.tables.length)
    (k : Fin p.tables.length) (role : Role) :
    p.cell? rows ⟨k.val + 1, role⟩ = some ((rows k).at role) := by
  have index : ∀ j : Fin p.tables.length, (p.tables.get j).index = j + 1 := by
    intro j
    have at_j := congrArg (fun list => list[j.val]?) numbered
    simpa [Nat.add_comm] using at_j
  have found : (p.tables.findFinIdx? fun t => t.index == k.val + 1) = some k := by
    refine List.findFinIdx?_eq_some_iff.mpr ⟨by simpa using index k, fun j before same => ?_⟩
    have equal : (p.tables.get j).index = k.val + 1 := by simpa using same
    rw [index j] at equal
    exact absurd before (by omega)
  simp only [cell?, found, Option.map_some]

theorem cell_within (numbered : p.tables.map NumberedTable.index = List.range' 1 p.tables.length)
    {column : Column} (within : column.Within p.tables.length) :
    p.cell? rows column = some (p.value rows column) := by
  obtain ⟨index, role⟩ := column
  obtain ⟨k, rfl⟩ := Nat.exists_eq_add_of_le' within.1
  have inside : k < p.tables.length := within.2
  have cell := cell_numbered rows numbered ⟨k, inside⟩ role
  rw [value, cell, Option.getD_some]

theorem condition_holds
    (numbered : p.tables.map NumberedTable.index = List.range' 1 p.tables.length)
    {c : Condition} (within : c.Within p.tables.length) :
    p.ConditionHolds rows c ↔ c.Holds (p.value rows) := by
  simp only [ConditionHolds, Condition.Holds, cell_within rows numbered within.1,
    cell_within rows numbered within.2, Option.some.injEq, exists_eq_left']
  exact eq_comm

theorem entry_holds (numbered : p.tables.map NumberedTable.index = List.range' 1 p.tables.length)
    {entry : Entry} (within : entry.Within p.tables.length) :
    (∀ c ∈ entry.join.toList ++ entry.extra, p.ConditionHolds rows c) ↔
      entry.Holds (p.value rows) := by
  have join : (∀ c ∈ entry.join.toList, p.ConditionHolds rows c) ↔
      ∀ c ∈ entry.join, c.Holds (p.value rows) := by
    simp only [Option.mem_toList]
    exact forall₂_congr fun c member => condition_holds rows numbered (within.1 c member)
  have extra : (∀ c ∈ entry.extra, p.ConditionHolds rows c) ↔
      ∀ c ∈ entry.extra, c.Holds (p.value rows) :=
    forall₂_congr fun c member => condition_holds rows numbered (within.2 c member)
  rw [List.forall_mem_append, join, extra, Entry.Holds]

theorem holds_arranged {joinPlan : JoinPlan} {root : Entry} {rest : List Entry}
    (numbered : p.tables.map NumberedTable.index = List.range' 1 p.tables.length)
    (within : joinPlan.Within p.tables.length) (entries : joinPlan.entries = root :: rest)
    (alone : root.join = none)
    (ons : p.joins.map Join.on = rest.map (fun entry => entry.join.toList ++ entry.extra))
    (filters : p.filters = root.extra.map .columns ++ joinPlan.filters.map .constant) :
    p.Holds rows ↔ joinPlan.Holds (p.value rows) := by
  obtain ⟨entries_within, filters_within⟩ := within
  rw [entries] at entries_within
  obtain ⟨root_within, rest_within⟩ := List.forall_mem_cons.mp entries_within
  have joins : (∀ join ∈ p.joins, ∀ c ∈ join.on, p.ConditionHolds rows c) ↔
      ∀ entry ∈ rest, entry.Holds (p.value rows) := by
    rw [← List.forall_mem_map (f := Join.on) (P := fun on => ∀ c ∈ on, p.ConditionHolds rows c),
      ons, List.forall_mem_map]
    exact forall₂_congr fun entry member => entry_holds rows numbered (rest_within entry member)
  have first : (∀ c ∈ root.extra, p.ConditionHolds rows c) ↔ root.Holds (p.value rows) := by
    simpa [alone] using entry_holds rows numbered root_within
  have constants : (∀ f ∈ joinPlan.filters, p.cell? rows f.column = some f.literal) ↔
      ∀ f ∈ joinPlan.filters, p.value rows f.column = f.literal := by
    refine forall₂_congr fun f member => ?_
    rw [cell_within rows numbered (filters_within f member), Option.some.injEq]
  rw [Holds, joins, filters, List.forall_mem_append, List.forall_mem_map, List.forall_mem_map]
  simp only [FilterHolds]
  rw [first, constants, JoinPlan.Holds, entries, List.forall_mem_cons]
  constructor
  · rintro ⟨others, here, literals⟩
    exact ⟨⟨here, others⟩, literals⟩
  · rintro ⟨⟨here, others⟩, literals⟩
    exact ⟨others, here, literals⟩

end

end SelectPlan

theorem select_plan_placed {joinPlan : JoinPlan} {placed : List Triple} (distinct : Bool)
    {projection : List ProjectionItem} (is_placed : JoinPlan.Placed joinPlan placed)
    (inhabited : placed ≠ []) (items : projection ≠ []) :
    ∃ p, SelectPlan.ofQueryPlan ⟨distinct, projection, joinPlan⟩ = .ok p ∧
      p.items = projection ∧ p.tables.map NumberedTable.table = placed.map tableOf ∧
      p.tables.map NumberedTable.index = List.range' 1 p.tables.length ∧
      ∀ rows, p.Holds rows ↔ joinPlan.Holds (p.value rows) := by
  obtain ⟨root, rest, entries, alone, joined⟩ := JoinPlan.placed_root is_placed inhabited
  obtain ⟨p, made, -, projected, tables, ons, filters⟩ :=
    SelectPlan.of_query_plan (q := ⟨distinct, projection, joinPlan⟩) items entries joined
  have size : p.tables.length = joinPlan.entries.length := by rw [tables, List.length_map]
  have numbered : p.tables.map NumberedTable.index = List.range' 1 p.tables.length := by
    rw [size, JoinPlan.placed_length is_placed, ← is_placed.numbered, tables, List.map_map]
    rfl
  refine ⟨p, made, projected, ?_, numbered, fun rows => ?_⟩
  · rw [← is_placed.tables, tables, List.map_map]
    rfl
  · have within := is_placed.within
    rw [← size] at within
    exact SelectPlan.holds_arranged rows numbered within entries alone ons filters

def places {xs ys : List Triple} (perm : xs.Perm ys) : Fin xs.length ≃ Fin ys.length where
  toFun := perm.idxBij
  invFun := perm.symm.idxBij
  left_inv _ := perm.idxBij_symm_idxBij
  right_inv _ := perm.idxBij_idxBij_symm

theorem places_get {xs ys : List Triple} (perm : xs.Perm ys) (k : Fin xs.length) :
    ys.get (places perm k) = xs.get k :=
  perm.getElem_idxBij_eq_getElem k

theorem solves_placed {p : SelectPlan} {placed triples : List Triple}
    (numbered : p.tables.map NumberedTable.index = List.range' 1 p.tables.length)
    (size : p.tables.length = placed.length) (perm : placed.Perm triples)
    {rows : Fin p.tables.length → Row} {others : Fin triples.length → Row}
    (same : ∀ k, others (((finCongr size).trans (places perm)) k) = rows k) (env : Text → Text) :
    Solves triples others env ↔
      ∀ k t, placed[k]? = some t → ∀ role, p.value rows ⟨k + 1, role⟩ = valueOf env t role := by
  have value : ∀ (k : Fin p.tables.length) (role : Role),
      p.value rows ⟨k.val + 1, role⟩ = (rows k).at role := by
    intro k role
    rw [SelectPlan.value, SelectPlan.cell_numbered rows numbered, Option.getD_some]
  constructor
  · intro solves k t at_k role
    obtain ⟨inside, rfl⟩ := List.getElem?_eq_some_iff.mp at_k
    have here := solves (places perm ⟨k, inside⟩) role
    rw [places_get] at here
    rw [value ⟨k, size ▸ inside⟩ role, ← same ⟨k, size ▸ inside⟩]
    exact here
  · intro explains k role
    obtain ⟨j, rfl⟩ := ((finCongr size).trans (places perm)).surjective k
    rw [same j, ← value j role, explains j.val (placed.get (finCongr size j)) (by simp) role]
    exact congrArg (fun t => valueOf env t role) (places_get perm _).symm

-- The statement may name the tables in another order than the pattern does, so its rows answer
-- up to that reordering: one to one, and with the values selected that the solution gives.
def SelectPlan.Answers (p : SelectPlan) (triples : List Triple) : Prop :=
  ∃ σ : Fin p.tables.length ≃ Fin triples.length,
    (∀ k, p.tableName k = tripleTable triples (σ k)) ∧
    ∀ db : Database,
      ∃ e : {c : Choice db p.tableName // p.Holds c.row} ≃
          {c : Choice db (tripleTable triples) // ∃ env, Solves triples c.row env},
        (∀ c k, (e c).1.row (σ k) = c.1.row k) ∧
        ∀ c env, Solves triples (e c).1.row env →
          p.answer c.1.row = p.items.map fun item => some (env item.variableName)

theorem resolved_answers (triples : List Triple) (joinPlan : JoinPlan) (distinct : Bool)
    (projection : List ProjectionItem) (resolved : resolve triples = .ok joinPlan)
    (inhabited : projection ≠ [])
    (bound : ∀ item ∈ projection,
      joinPlan.bindings.get? item.variableName = some item.column) :
    ∃ p, SelectPlan.ofQueryPlan ⟨distinct, projection, joinPlan⟩ = .ok p ∧
      p.items = projection ∧ p.Answers triples := by
  obtain ⟨placed, some_triple, is_placed, perm⟩ := resolve_placed resolved
  obtain ⟨p, made, items, tables, numbered, holds⟩ :=
    select_plan_placed distinct is_placed some_triple inhabited
  have size : p.tables.length = placed.length := by simpa using congrArg List.length tables
  let σ := (finCongr size).trans (places perm)
  have same : ∀ k, p.tableName k = tripleTable triples (σ k) := by
    intro k
    have at_k := congrArg (fun list => list[k.val]?) tables
    have inside : k.val < placed.length := by
      rw [← size]
      exact k.isLt
    simp only [List.getElem?_map, List.getElem?_eq_getElem k.isLt,
      List.getElem?_eq_getElem inside, Option.map_some, Option.some.injEq] at at_k
    exact at_k.trans (congrArg tableOf (places_get perm (finCongr size k)).symm)
  refine ⟨p, made, items, σ, same, fun db => ?_⟩
  have solves (c : Choice db p.tableName) (env : Text → Text) :=
    solves_placed numbered size perm (Choice.renumber_row σ same c) env
  refine ⟨(Choice.renumber σ same).subtypeEquiv fun c => ?_, ?_, ?_⟩
  · rw [holds, JoinPlan.placed_holds is_placed]
    exact exists_congr fun env => (solves c env).symm
  · exact fun c k => Choice.renumber_row σ same c.1 k
  · intro c env solved
    have explains := (solves c.1 env).mp solved
    rw [SelectPlan.answer, items]
    refine List.map_congr_left fun item member => ?_
    have reads := JoinPlan.placed_reads is_placed explains (bound item member)
    have within := JoinPlan.bound_within is_placed (bound item member)
    rw [JoinPlan.placed_length is_placed, ← size] at within
    rw [SelectPlan.cell_within _ numbered within, reads]

def cycle : List Triple := [
  ⟨.variable ['x'], .constant ['p'], .variable ['y']⟩,
  ⟨.variable ['z'], .constant ['q'], .constant ['c']⟩,
  ⟨.variable ['y'], .constant ['p'], .variable ['z']⟩,
  ⟨.variable ['z'], .constant ['p'], .variable ['x']⟩]

def cyclePlan : JoinPlan where
  entries := [
    ⟨['p'], 1, none, []⟩,
    ⟨['p'], 2, some ⟨⟨1, .object⟩, ⟨2, .subject⟩⟩, []⟩,
    ⟨['p'], 3, some ⟨⟨2, .object⟩, ⟨3, .subject⟩⟩, [⟨⟨1, .subject⟩, ⟨3, .object⟩⟩]⟩,
    ⟨['q'], 4, some ⟨⟨2, .object⟩, ⟨4, .subject⟩⟩, []⟩]
  filters := [⟨⟨4, .object⟩, ['c']⟩]
  bindings := [(['x'], ⟨1, .subject⟩), (['y'], ⟨1, .object⟩), (['z'], ⟨2, .object⟩)]

theorem cycle_answered :
    resolve cycle = .ok cyclePlan ∧
      ∃ p, SelectPlan.ofQueryPlan ⟨true, [⟨['z'], ⟨2, .object⟩⟩], cyclePlan⟩ = .ok p ∧
        p.items = [⟨['z'], ⟨2, .object⟩⟩] ∧ p.Answers cycle :=
  ⟨rfl, resolved_answers cycle cyclePlan true _ rfl (by decide) (by decide)⟩

end TripleTable.Plan
