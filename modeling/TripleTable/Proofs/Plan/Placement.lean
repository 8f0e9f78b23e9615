import TripleTable.Plan.Resolution
set_option autoImplicit false

/-!
What a join plan holds once some triples are placed in it: one numbered table for each of them, a
binding for each of their variables, and conditions that say no less and no more than that equal
variables have equal values and constants their own.
-/
namespace TripleTable.Plan
open Pattern (Term Triple Defect checkConnected)

def tableOf (t : Triple) : Text := t.table?.getD []

namespace Bindings

theorem get_bind (b : Bindings) (name other : Text) (column : Column) :
    (b.bind name column).2.get? other =
      (b.get? other).or (if other = name then some column else none) := by
  unfold bind
  cases found : b.get? name with
  | some old =>
    by_cases same : other = name
    · simp [same, found]
    · simp [same]
  | none =>
    by_cases same : other = name
    · subst other
      simp only [get?, List.lookup_append] at found ⊢
      simp [found]
    · have different : (other == name) = false := by simpa using same
      simp only [get?, List.lookup_append]
      simp [List.lookup_cons, different, same]

theorem bind_first (b : Bindings) (name : Text) (column : Column) :
    (b.bind name column).1 = ((b.get? name).getD column, (b.get? name).isNone) := by
  unfold bind
  cases b.get? name <;> rfl

end Bindings

def Condition.Holds (value : Column → Text) (c : Condition) : Prop := value c.left = value c.right

def Entry.Holds (value : Column → Text) (entry : Entry) : Prop :=
  (∀ c ∈ entry.join, c.Holds value) ∧ ∀ c ∈ entry.extra, c.Holds value

def Column.Within (size : Nat) (c : Column) : Prop := 1 ≤ c.index ∧ c.index ≤ size

def Condition.Within (size : Nat) (c : Condition) : Prop :=
  c.left.Within size ∧ c.right.Within size

def Entry.Within (size : Nat) (entry : Entry) : Prop :=
  (∀ c ∈ entry.join, c.Within size) ∧ ∀ c ∈ entry.extra, c.Within size

theorem Column.within_larger {size larger : Nat} {c : Column} (le : size ≤ larger)
    (within : c.Within size) : c.Within larger :=
  ⟨within.1, Nat.le_trans within.2 le⟩

theorem Entry.within_larger {size larger : Nat} {entry : Entry} (le : size ≤ larger)
    (within : entry.Within size) : entry.Within larger := by
  refine ⟨fun c member => ?_, fun c member => ?_⟩
  · have both := within.1 c member
    exact ⟨Column.within_larger le both.1, Column.within_larger le both.2⟩
  · have both := within.2 c member
    exact ⟨Column.within_larger le both.1, Column.within_larger le both.2⟩

namespace JoinPlan

def Within (size : Nat) (p : JoinPlan) : Prop :=
  (∀ entry ∈ p.entries, entry.Within size) ∧ ∀ f ∈ p.filters, f.column.Within size

def Holds (value : Column → Text) (p : JoinPlan) : Prop :=
  (∀ entry ∈ p.entries, entry.Holds value) ∧
    ∀ f ∈ p.filters, value f.column = f.literal

def SideAgrees (value : Column → Text) (b : Bindings) (t : Triple) (index : Nat) (role : Role) :
    Prop :=
  match termAt t role with
  | .constant text => value ⟨index, role⟩ = literalOf (tableOf t) role text
  | .variable name => ∀ bound, b.get? name = some bound → value ⟨index, role⟩ = value bound

def Agrees (value : Column → Text) (b : Bindings) (t : Triple) (index : Nat) : Prop :=
  ∀ role, SideAgrees value b t index role

def Knows (b : Bindings) (t : Triple) : Prop :=
  ∀ role name, termAt t role = .variable name → (b.get? name).isSome

def Extends (b later : Bindings) : Prop :=
  ∀ name column, b.get? name = some column → later.get? name = some column

theorem side_cases (t : Triple) (role : Role) :
    (∃ text, termAt t role = .constant text) ∨ ∃ name, termAt t role = .variable name := by
  cases termAt t role with
  | constant text => exact .inl ⟨text, rfl⟩
  | «variable» name => exact .inr ⟨name, rfl⟩

theorem side_agrees_constant {value : Column → Text} {b : Bindings} {t : Triple} {index : Nat}
    {role : Role} {text : Text} (term : termAt t role = .constant text) :
    SideAgrees value b t index role ↔ value ⟨index, role⟩ = literalOf (tableOf t) role text := by
  simp only [SideAgrees, term]

theorem side_agrees_variable {value : Column → Text} {b : Bindings} {t : Triple} {index : Nat}
    {role : Role} {name : Text} {bound : Column} (term : termAt t role = .variable name)
    (found : b.get? name = some bound) :
    SideAgrees value b t index role ↔ value ⟨index, role⟩ = value bound := by
  simp only [SideAgrees, term, found, Option.some.injEq, forall_eq']

theorem side_agrees_extended {value : Column → Text} {b later : Bindings} {t : Triple} {index : Nat}
    {role : Role} (extended : Extends b later)
    (known : ∀ name, termAt t role = .variable name → (b.get? name).isSome) :
    SideAgrees value later t index role ↔ SideAgrees value b t index role := by
  rcases side_cases t role with ⟨text, term⟩ | ⟨name, term⟩
  · rw [side_agrees_constant term, side_agrees_constant term]
  · obtain ⟨column, found⟩ := Option.isSome_iff_exists.mp (known name term)
    rw [side_agrees_variable term found, side_agrees_variable term (extended name column found)]

theorem holds_add_entry (value : Column → Text) (state : JoinPlan × Entry) :
    (addEntry state).Holds value ↔ state.1.Holds value ∧ state.2.Holds value := by
  simp only [Holds, addEntry, List.forall_mem_append, List.forall_mem_singleton]
  exact and_right_comm

theorem bind_side_constant {t : Triple} {role : Role} {text : Text}
    (term : termAt t role = .constant text) (p : JoinPlan) (entry : Entry) :
    bindSide t role (p, entry) =
      ({ p with
          filters := p.filters ++ [⟨⟨entry.index, role⟩, literalOf entry.table role text⟩] },
        entry) := by
  simp only [bindSide, term]

theorem bind_side_variable {t : Triple} {role : Role} {name : Text}
    (term : termAt t role = .variable name) (p : JoinPlan) (entry : Entry) :
    bindSide t role (p, entry) =
      ({ p with bindings := (p.bindings.bind name ⟨entry.index, role⟩).2 },
        { entry with
          extra := entry.extra ++
            ((p.bindings.get? name).map fun first => ⟨first, ⟨entry.index, role⟩⟩).toList }) := by
  simp only [bindSide, term, Bindings.bind_first]
  cases p.bindings.get? name <;> simp

theorem holds_new_entry (value : Column → Text) (p : JoinPlan) (t : Triple)
    (join : Option Condition) :
    (addEntry (p, p.newEntry t join)).Holds value ↔
      p.Holds value ∧ ∀ c ∈ join, c.Holds value := by
  rw [holds_add_entry]
  simp [newEntry, Entry.Holds]

theorem bind_side_entries (t : Triple) (role : Role) (state : JoinPlan × Entry) :
    (bindSide t role state).1.entries = state.1.entries := by
  obtain ⟨p, entry⟩ := state
  rcases side_cases t role with ⟨text, term⟩ | ⟨name, term⟩
  · rw [bind_side_constant term]
  · rw [bind_side_variable term]

theorem bind_side_entry (t : Triple) (role : Role) (state : JoinPlan × Entry) :
    (bindSide t role state).2.table = state.2.table ∧
      (bindSide t role state).2.index = state.2.index ∧
      (bindSide t role state).2.join = state.2.join := by
  obtain ⟨p, entry⟩ := state
  rcases side_cases t role with ⟨text, term⟩ | ⟨name, term⟩
  · rw [bind_side_constant term]
    exact ⟨rfl, rfl, rfl⟩
  · rw [bind_side_variable term]
    exact ⟨rfl, rfl, rfl⟩

theorem bind_side_get (t : Triple) (role : Role) (state : JoinPlan × Entry) (name : Text) :
    (bindSide t role state).1.bindings.get? name =
      (state.1.bindings.get? name).or
        (if termAt t role = .variable name then some ⟨state.2.index, role⟩ else none) := by
  obtain ⟨p, entry⟩ := state
  rcases side_cases t role with ⟨text, term⟩ | ⟨other, term⟩
  · simp [bind_side_constant term, term]
  · simp only [bind_side_variable term, term, Bindings.get_bind, Term.variable.injEq, eq_comm]

theorem bind_side_extends (t : Triple) (role : Role) (state : JoinPlan × Entry) :
    Extends state.1.bindings (bindSide t role state).1.bindings := by
  intro name column found
  rw [bind_side_get, found, Option.some_or]

theorem bind_side_knows (t : Triple) (role : Role) (state : JoinPlan × Entry) (name : Text)
    (term : termAt t role = .variable name) :
    ((bindSide t role state).1.bindings.get? name).isSome := by
  rw [bind_side_get, if_pos term]
  cases state.1.bindings.get? name <;> rfl

-- Each binding knows one value of its variable. A side adds the condition that its column has
-- that value, or a new binding that fixes it, and nothing else.
theorem bind_side_holds (value : Column → Text) (t : Triple) (role : Role)
    (state : JoinPlan × Entry) (table : state.2.table = tableOf t) :
    (addEntry (bindSide t role state)).Holds value ↔
      (addEntry state).Holds value ∧
        SideAgrees value (bindSide t role state).1.bindings t state.2.index role := by
  obtain ⟨p, entry⟩ := state
  simp only at table
  rw [holds_add_entry, holds_add_entry]
  rcases side_cases t role with ⟨text, term⟩ | ⟨name, term⟩
  · rw [side_agrees_constant term, bind_side_constant term]
    simp only [Holds, List.forall_mem_append, List.forall_mem_singleton, table]
    rw [← and_assoc, and_right_comm]
  · have bound := bind_side_get t role (p, entry) name
    rw [if_pos term] at bound
    cases found : p.bindings.get? name with
    | none =>
      -- A fresh variable is bound to this very column, which asks for nothing.
      rw [found, Option.none_or] at bound
      rw [side_agrees_variable term bound, bind_side_variable term, found]
      simp [Holds]
    | some first =>
      rw [found, Option.some_or] at bound
      rw [side_agrees_variable term bound, bind_side_variable term, found]
      simp only [Option.map_some, Option.toList_some, Holds, Entry.Holds, Condition.Holds,
        List.forall_mem_append, List.forall_mem_singleton]
      rw [eq_comm (a := value ⟨entry.index, role⟩)]
      simp only [and_assoc]

theorem within_add_entry {size : Nat} {state : JoinPlan × Entry} :
    (addEntry state).Within size ↔ state.1.Within size ∧ state.2.Within size := by
  simp only [Within, addEntry, List.forall_mem_append, List.forall_mem_singleton]
  exact and_right_comm

theorem bind_side_within {size : Nat} {t : Triple} {role : Role} {state : JoinPlan × Entry}
    (within : (addEntry state).Within size) (here : 1 ≤ state.2.index ∧ state.2.index ≤ size)
    (bound : ∀ name column, state.1.bindings.get? name = some column → column.Within size) :
    (addEntry (bindSide t role state)).Within size := by
  obtain ⟨p, entry⟩ := state
  rw [within_add_entry] at within ⊢
  obtain ⟨⟨entries, filters⟩, ⟨join, extra⟩⟩ := within
  rcases side_cases t role with ⟨text, term⟩ | ⟨name, term⟩
  · rw [bind_side_constant term]
    refine ⟨⟨entries, ?_⟩, join, extra⟩
    exact List.forall_mem_append.mpr ⟨filters, List.forall_mem_singleton.mpr here⟩
  · rw [bind_side_variable term]
    refine ⟨⟨entries, filters⟩, join, List.forall_mem_append.mpr ⟨extra, ?_⟩⟩
    intro c member
    obtain ⟨first, found, rfl⟩ := Option.map_eq_some_iff.mp (Option.mem_toList.mp member)
    exact ⟨bound name first found, here⟩

-- The plan holds exactly the triples, placed in this order. The columns it may refer to are
-- those of tables that stand before, which is why a placement only ever looks back.
structure Placed (p : JoinPlan) (ts : List Triple) : Prop where
  tables : p.entries.map Entry.table = ts.map tableOf
  numbered : p.entries.map Entry.index = List.range' 1 ts.length
  anchored : ∀ entry ∈ p.entries.head?, entry.join = none
  joined : ∀ entry ∈ p.entries.drop 1, entry.join.isSome
  within : p.Within p.entries.length
  bound : ∀ name column, p.bindings.get? name = some column →
    ∃ k t, ts[k]? = some t ∧ column.index = k + 1 ∧ termAt t column.role = .variable name
  known : ∀ t ∈ ts, Knows p.bindings t
  meaning : ∀ value, p.Holds value ↔
    ∀ k t, ts[k]? = some t → Agrees value p.bindings t (k + 1)

theorem placed_length {p : JoinPlan} {ts : List Triple} (placed : Placed p ts) :
    p.entries.length = ts.length := by
  simpa using congrArg List.length placed.tables

theorem placed_root {p : JoinPlan} {ts : List Triple} (placed : Placed p ts) (inhabited : ts ≠ []) :
    ∃ root rest, p.entries = root :: rest ∧ root.join = none ∧
      ∀ entry ∈ rest, entry.join.isSome := by
  have length := placed_length placed
  have anchored := placed.anchored
  have joined := placed.joined
  cases entries : p.entries with
  | nil =>
    rw [entries] at length
    exact absurd (List.eq_nil_of_length_eq_zero length.symm) inhabited
  | cons root rest =>
    rw [entries] at anchored joined
    exact ⟨root, rest, rfl, anchored root rfl, joined⟩

theorem bound_within {p : JoinPlan} {ts : List Triple} (placed : Placed p ts) {name : Text}
    {column : Column} (found : p.bindings.get? name = some column) :
    column.Within p.entries.length := by
  obtain ⟨k, t, at_k, index, -⟩ := placed.bound name column found
  have inside := (List.getElem?_eq_some_iff.mp at_k).1
  rw [Column.Within, index, placed_length placed]
  omega

theorem within_next {p : JoinPlan} {ts : List Triple} (placed : Placed p ts) (t : Triple)
    {join : Option Condition} (within : ∀ c ∈ join, c.Within p.nextIndex) :
    (addEntry (p, p.newEntry t join)).Within p.nextIndex := by
  refine within_add_entry.mpr ⟨⟨?_, ?_⟩, within, by simp [newEntry]⟩
  · intro entry member
    exact Entry.within_larger (by simp [nextIndex]) (placed.within.1 entry member)
  · intro f member
    exact Column.within_larger (by simp [nextIndex]) (placed.within.2 f member)

-- The two sides of a triple that becomes the next entry; `join` speaks for the side it
-- replaces.
theorem agrees_sides (value : Column → Text) (b : Bindings) (t : Triple) (index : Nat)
    (role : Role) :
    Agrees value b t index ↔
      SideAgrees value b t index role ∧ SideAgrees value b t index role.opposite := by
  constructor
  · intro agrees
    exact ⟨agrees role, agrees role.opposite⟩
  · rintro ⟨here, there⟩ other
    cases role <;> cases other <;> assumption

theorem placed_nil : Placed {} [] where
  tables := rfl
  numbered := rfl
  anchored := by simp
  joined := by simp
  within := by simp [Within]
  bound := by simp [Bindings.get?]
  known := by simp
  meaning := by simp [Holds]

-- The triples placed before know their variables already, so the bindings that the next one adds
-- say nothing new about them.
theorem agrees_next {value : Column → Text} {old new : Bindings} {ts : List Triple} {t : Triple}
    (extended : Extends old new) (known : ∀ s ∈ ts, Knows old s) :
    (∀ k s, (ts ++ [t])[k]? = some s → Agrees value new s (k + 1)) ↔
      (∀ k s, ts[k]? = some s → Agrees value old s (k + 1)) ∧
        Agrees value new t (ts.length + 1) := by
  constructor
  · intro all
    refine ⟨fun k s at_k role => ?_, all ts.length t (by simp)⟩
    have knows := known s (List.mem_of_getElem? at_k)
    refine (side_agrees_extended extended (knows role)).mp (all k s ?_ role)
    rw [List.getElem?_append_left (List.getElem?_eq_some_iff.mp at_k).1, at_k]
  · rintro ⟨older, newest⟩ k s at_k
    by_cases inside : k < ts.length
    · rw [List.getElem?_append_left inside] at at_k
      have knows := known s (List.mem_of_getElem? at_k)
      exact fun role => (side_agrees_extended extended (knows role)).mpr (older k s at_k role)
    · rw [List.getElem?_append_right (by omega)] at at_k
      obtain ⟨at_end, rfl⟩ : k - ts.length = 0 ∧ s = t := by
        cases difference : k - ts.length <;> simp_all
      rw [show k = ts.length by omega]
      exact newest

theorem placed_next {p : JoinPlan} {ts : List Triple} {t : Triple} {state : JoinPlan × Entry}
    (placed : Placed p ts) (entries : state.1.entries = p.entries)
    (table : state.2.table = tableOf t) (index : state.2.index = p.nextIndex)
    (join : if p.entries = [] then state.2.join = none else state.2.join.isSome)
    (within : (addEntry state).Within p.nextIndex) (extended : Extends p.bindings state.1.bindings)
    (fresh : ∀ name column, state.1.bindings.get? name = some column →
      p.bindings.get? name = some column ∨
        column.index = p.nextIndex ∧ termAt t column.role = .variable name)
    (known : Knows state.1.bindings t)
    (meaning : ∀ value, (addEntry state).Holds value ↔
      p.Holds value ∧ Agrees value state.1.bindings t p.nextIndex) :
    Placed (addEntry state) (ts ++ [t]) where
  tables := by simp [addEntry, entries, placed.tables, table]
  numbered := by
    simp [addEntry, entries, placed.numbered, index, nextIndex, placed_length placed,
      List.range'_concat, Nat.add_comm]
  anchored := by
    have anchored := placed.anchored
    simp only [addEntry, entries]
    cases listed : p.entries with
    | nil =>
      rw [if_pos listed] at join
      simpa using join
    | cons first rest => simpa [listed] using anchored
  joined := by
    have joined := placed.joined
    simp only [addEntry, entries]
    cases listed : p.entries with
    | nil => simp
    | cons first rest =>
      rw [if_neg (by simp [listed])] at join
      simp only [listed, List.drop_succ_cons, List.drop_zero] at joined
      simpa [or_imp, forall_and, join] using joined
  within := by simpa [addEntry, entries, nextIndex] using within
  bound := by
    intro name column found
    rcases fresh name column found with old | ⟨number, term⟩
    · obtain ⟨k, s, at_k, rest⟩ := placed.bound name column old
      have inside := (List.getElem?_eq_some_iff.mp at_k).1
      exact ⟨k, s, by rw [List.getElem?_append_left inside, at_k], rest⟩
    · exact ⟨ts.length, t, by simp, by rw [number, nextIndex, placed_length placed], term⟩
  known := by
    intro s member role name term
    rcases List.mem_append.mp member with old | new
    · obtain ⟨column, found⟩ := Option.isSome_iff_exists.mp (placed.known s old role name term)
      rw [addEntry, extended name column found]
      rfl
    · obtain rfl := List.mem_singleton.mp new
      exact known role name term
  meaning := by
    intro value
    rw [meaning value, placed.meaning value, nextIndex, placed_length placed]
    exact (agrees_next extended placed.known).symm

theorem bind_side_fresh {t : Triple} {role : Role} {state : JoinPlan × Entry} {name : Text}
    {column : Column} (found : (bindSide t role state).1.bindings.get? name = some column) :
    state.1.bindings.get? name = some column ∨
      column = ⟨state.2.index, role⟩ ∧ termAt t role = .variable name := by
  rw [bind_side_get] at found
  cases old : state.1.bindings.get? name with
  | some bound =>
    rw [old, Option.some_or] at found
    exact .inl found
  | none =>
    rw [old, Option.none_or] at found
    split at found
    · rename_i term
      exact .inr ⟨(Option.some.inj found).symm, term⟩
    · cases found

theorem join_side_bound {p : JoinPlan} {t : Triple} {role : Role} {column : Column}
    (found : p.joinSide? t = some (role, column)) :
    ∃ name, termAt t role = .variable name ∧ p.bindings.get? name = some column := by
  have of_bound : ∀ term, p.bound? term = some column →
      ∃ name, term = .variable name ∧ p.bindings.get? name = some column := by
    intro term bound
    obtain ⟨name, isVariable, got⟩ := Option.bind_eq_some_iff.mp bound
    cases term with
    | constant text => cases isVariable
    | «variable» other =>
      obtain rfl := Option.some.inj isVariable
      exact ⟨other, rfl, got⟩
  unfold joinSide? at found
  split at found
  · rename_i bound subject
    cases found
    exact of_bound t.subject subject
  · obtain ⟨bound, object, pair⟩ := Option.map_eq_some_iff.mp found
    cases pair
    exact of_bound t.object object

theorem place_anchor_placed (t : Triple) : Placed (placeAnchor {} t) [t] := by
  let start : JoinPlan × Entry := ({}, newEntry {} t none)
  let first := bindSide t .subject start
  have entries := (bind_side_entries t .object first).trans (bind_side_entries t .subject start)
  obtain ⟨table, index, join⟩ := bind_side_entry t .object first
  obtain ⟨table₀, index₀, join₀⟩ := bind_side_entry t .subject start
  have within : (addEntry first).Within 1 :=
    bind_side_within (within_next placed_nil t (by simp)) ⟨Nat.le_refl _, Nat.le_refl _⟩
      (by simp [start, Bindings.get?])
  have extended := bind_side_extends t .object first
  have subject := bind_side_knows t .subject start
  refine placed_next placed_nil entries (table.trans table₀) (index.trans index₀)
    (join.trans join₀) (bind_side_within within ?_ ?_)
    (fun _ _ found => extended _ _ (bind_side_extends _ _ _ _ _ found)) ?_ ?_ ?_
  · rw [index₀]
    exact ⟨Nat.le_refl _, Nat.le_refl _⟩
  · intro name column found
    rcases bind_side_fresh found with old | ⟨rfl, -⟩
    · cases old
    · exact ⟨Nat.le_refl _, Nat.le_refl _⟩
  · intro name column found
    rcases bind_side_fresh found with old | ⟨rfl, term⟩
    · rcases bind_side_fresh old with older | ⟨rfl, term⟩
      · exact .inl older
      · exact .inr ⟨rfl, term⟩
    · exact .inr ⟨index₀, term⟩
  · intro role name term
    cases role with
    | subject =>
      obtain ⟨column, found⟩ := Option.isSome_iff_exists.mp (subject name term)
      rw [extended name column found]
      rfl
    | object => exact bind_side_knows t .object first name term
  · intro value
    have holds := bind_side_holds value t .object first table₀
    rw [bind_side_holds value t .subject start rfl, holds_new_entry, index₀] at holds
    rw [holds, agrees_sides value _ t _ .subject, side_agrees_extended extended subject, and_assoc]
    simp only [Option.not_mem_none, false_implies, implies_true, and_true]
    exact Iff.rfl

-- A triple placed by one of its bound variables: its join speaks for that side.
theorem try_place_placed {p placed : JoinPlan} {ts : List Triple} {t : Triple}
    (before : Placed p ts) (step : p.tryPlace? t = some placed) : Placed placed (ts ++ [t]) := by
  obtain ⟨⟨role, column⟩, side, rfl⟩ := Option.map_eq_some_iff.mp step
  obtain ⟨name, term, bound⟩ := join_side_bound side
  let start : JoinPlan × Entry := (p, p.newEntry t (some ⟨column, ⟨p.nextIndex, role⟩⟩))
  obtain ⟨table, index, join⟩ := bind_side_entry t role.opposite start
  have extended := bind_side_extends t role.opposite start
  have here : 1 ≤ p.nextIndex ∧ p.nextIndex ≤ p.nextIndex := ⟨by simp [nextIndex], Nat.le_refl _⟩
  refine placed_next before (bind_side_entries t role.opposite start) table index
    ?_ (bind_side_within (within_next before t ?_) ?_ ?_) extended ?_ ?_ ?_
  · have inhabited : p.entries ≠ [] := by
      intro empty
      have within := bound_within before bound
      simp only [Column.Within, empty, List.length_nil] at within
      omega
    rw [if_neg inhabited, join]
    rfl
  · simp only [Option.mem_some_iff, forall_eq']
    exact ⟨Column.within_larger (by simp [nextIndex]) (bound_within before bound), here⟩
  · exact here
  · intro other found_at found
    exact Column.within_larger (by simp [nextIndex]) (bound_within before found)
  · intro other found_at found
    rcases bind_side_fresh found with old | ⟨rfl, isTerm⟩
    · exact .inl old
    · exact .inr ⟨rfl, isTerm⟩
  · intro other_role other isTerm
    by_cases same : other_role = role
    · subst same
      obtain rfl : name = other := by simpa [term] using isTerm
      rw [extended name column bound]
      rfl
    · have opposite : other_role = role.opposite := by
        cases role <;> cases other_role <;> simp_all [Role.opposite]
      subst opposite
      exact bind_side_knows t role.opposite start other isTerm
  · intro value
    rw [bind_side_holds value t role.opposite start rfl, holds_new_entry,
      agrees_sides value _ t _ role, side_agrees_variable term (extended name column bound),
      and_assoc]
    simp only [Option.mem_some_iff, forall_eq', Condition.Holds]
    rw [eq_comm (a := value column)]
    exact Iff.rfl

-- Triples placed one behind the other, each by a variable that is bound at its turn.
inductive Run : JoinPlan → List (Triple × Nat) → JoinPlan → Prop
  | done (p : JoinPlan) : Run p [] p
  | step {p next q : JoinPlan} {entry : Triple × Nat} {rest : List (Triple × Nat)} :
      p.tryPlace? entry.1 = some next → Run next rest q → Run p (entry :: rest) q

theorem run_append {p middle q : JoinPlan} {early late : List (Triple × Nat)}
    (first : Run p early middle) (second : Run middle late q) : Run p (early ++ late) q := by
  induction first with
  | done => exact second
  | step placed _ ih => exact .step placed (ih second)

theorem run_placed {p q : JoinPlan} {ts : List Triple} {placed : List (Triple × Nat)}
    (before : Placed p ts) (run : Run p placed q) : Placed q (ts ++ placed.map Prod.fst) := by
  induction run generalizing ts with
  | done => simpa using before
  | step step _ ih => simpa using ih (try_place_placed before step)

-- A pass keeps the sequence of the triples that it places.
theorem pass_run {p q : JoinPlan} {pending waiting : List (Triple × Nat)}
    (passed : p.pass pending = (q, waiting)) :
    ∃ placed, Run p placed q ∧ placed.Sublist pending ∧ (placed ++ waiting).Perm pending := by
  induction pending generalizing p q waiting with
  | nil =>
    obtain ⟨rfl, rfl⟩ := Prod.mk.inj passed
    exact ⟨[], .done p, .slnil, .nil⟩
  | cons entry rest ih =>
    rw [pass] at passed
    cases step : p.tryPlace? entry.1 with
    | some next =>
      simp only [step] at passed
      obtain ⟨placed, run, within, perm⟩ := ih passed
      exact ⟨entry :: placed, .step step run, within.cons_cons entry, perm.cons entry⟩
    | none =>
      cases others : p.pass rest with
      | mk final left =>
        simp only [step, others] at passed
        obtain ⟨rfl, rfl⟩ := Prod.mk.inj passed
        obtain ⟨placed, run, within, perm⟩ := ih others
        exact ⟨placed, run, within.cons entry, List.perm_middle.trans (perm.cons entry)⟩

theorem passes_run {n : Nat} {p q : JoinPlan} {pending : List (Triple × Nat)}
    (passed : passUpTo n p pending = .ok q) :
    ∃ placed, Run p placed q ∧ placed.Perm pending := by
  induction n generalizing p pending with
  | zero =>
    cases pending with
    | nil =>
      obtain rfl := Except.ok.inj passed
      exact ⟨[], .done p, .nil⟩
    | cons entry rest => cases passed
  | succ n ih =>
    cases pending with
    | nil =>
      obtain rfl := Except.ok.inj passed
      exact ⟨[], .done p, .nil⟩
    | cons entry rest =>
      rw [passUpTo] at passed
      cases others : p.pass (entry :: rest) with
      | mk next waiting =>
        simp only [others] at passed
        split at passed
        · cases passed
        · obtain ⟨early, first, -, split⟩ := pass_run others
          obtain ⟨late, second, perm⟩ := ih passed
          exact ⟨early ++ late, run_append first second, (perm.append_left early).trans split⟩

theorem pass_placed {p q : JoinPlan} {ts : List Triple} {pending waiting : List (Triple × Nat)}
    (before : Placed p ts) (passed : p.pass pending = (q, waiting)) :
    ∃ placed, Placed q (ts ++ placed) ∧
      (placed ++ waiting.map Prod.fst).Perm (pending.map Prod.fst) := by
  obtain ⟨placed, run, -, perm⟩ := pass_run passed
  exact ⟨placed.map Prod.fst, run_placed before run, by simpa using perm.map Prod.fst⟩

end JoinPlan

-- Triples are resolved only past every check: each has a table, the anchor a variable, and all are
-- connected.
theorem resolve_accepted {triples : List Triple} {plan : JoinPlan}
    (resolved : resolve triples = .ok plan) :
    ∃ anchor rest, triples = anchor :: rest ∧ (∀ t ∈ triples, t.table? = some (tableOf t)) ∧
      anchor.variableNames ≠ [] ∧ checkConnected triples = .ok () ∧
      JoinPlan.passUpTo rest.length (.placeAnchor {} anchor) (rest.zipIdx 1) = .ok plan := by
  cases triples with
  | nil => cases resolved
  | cons anchor rest =>
    rw [resolve] at resolved
    split at resolved
    · cases resolved
    · rename_i named
      by_cases concrete : anchor.variableNames = []
      · rw [if_pos concrete] at resolved
        cases resolved
      · rw [if_neg concrete] at resolved
        cases checked : checkConnected (anchor :: rest) with
        | error defect =>
          rw [checked] at resolved
          cases resolved
        | ok _ =>
          rw [checked] at resolved
          refine ⟨anchor, rest, rfl, fun t member => ?_, concrete, rfl, resolved⟩
          have some_table := List.findIdx?_eq_none_iff.mp named t member
          cases table : t.table? with
          | none => simp [table] at some_table
          | some name => rw [tableOf, table, Option.getD_some]

-- Each round places what it can and keeps the rest, so over all rounds the placed and the
-- waiting triples stay a rearrangement of the pattern.
theorem resolve_placed {triples : List Triple} {plan : JoinPlan}
    (resolved : resolve triples = .ok plan) :
    ∃ placed, placed ≠ [] ∧ JoinPlan.Placed plan placed ∧ placed.Perm triples := by
  obtain ⟨anchor, rest, rfl, -, -, -, passed⟩ := resolve_accepted resolved
  obtain ⟨placed, run, perm⟩ := JoinPlan.passes_run passed
  refine ⟨anchor :: placed.map Prod.fst, List.cons_ne_nil _ _,
    JoinPlan.run_placed (JoinPlan.place_anchor_placed anchor) run, ?_⟩
  simpa using perm.map Prod.fst

end TripleTable.Plan
