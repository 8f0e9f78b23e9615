import TripleTable.Proofs.Plan.Classification
set_option autoImplicit false

/-!
Every term of the pattern is accounted for once: the column of a variable is bound or stands on the
right of a condition, the column of a constant is compared with its literal, and no column does
either a second time. Triples that are written in an order in which they can be placed stay in it.
-/
namespace TripleTable.Plan
open Pattern (Term Triple Adjacent)

inductive Kind where
  | bound
  | fixed
deriving DecidableEq

def kindOf : Term → Kind
  | .variable _ => .bound
  | .constant _ => .fixed

def Entry.rightSides (entry : Entry) : List Column :=
  (entry.join.toList ++ entry.extra).map Condition.right

namespace JoinPlan

def columns (p : JoinPlan) : Kind → List Column
  | .bound => p.bindings.map Prod.snd ++ p.entries.flatMap Entry.rightSides
  | .fixed => p.filters.map ConstantFilter.column

def accountFor (t : Triple) (kind : Kind) (role : Role) : Nat :=
  if kindOf (termAt t role) = kind then 1 else 0

theorem bindings_count (b : Bindings) (name : Text) (here c : Column) :
    ((b.bind name here).2.map Prod.snd).count c =
      (b.map Prod.snd).count c + if (b.get? name).isNone ∧ here = c then 1 else 0 := by
  unfold Bindings.bind
  cases b.get? name with
  | none => simp [List.count_singleton]
  | some first => simp

theorem rights_count (entry : Entry) (more : List Condition) (c : Column) :
    ({ entry with extra := entry.extra ++ more }.rightSides).count c =
      entry.rightSides.count c + (more.map Condition.right).count c := by
  simp [Entry.rightSides, Nat.add_assoc]

-- One side adds its own column, to the list of its kind.
theorem bind_side_count (t : Triple) (role : Role) (state : JoinPlan × Entry) (kind : Kind)
    (c : Column) :
    ((addEntry (bindSide t role state)).columns kind).count c =
      ((addEntry state).columns kind).count c +
        if ⟨state.2.index, role⟩ = c then accountFor t kind role else 0 := by
  obtain ⟨p, entry⟩ := state
  rcases side_cases t role with ⟨text, term⟩ | ⟨name, term⟩
  · rw [bind_side_constant term]
    cases kind <;> simp [columns, addEntry, accountFor, term, kindOf, List.count_singleton]
  · rw [bind_side_variable term]
    cases kind with
    | fixed => simp [columns, addEntry, accountFor, term, kindOf]
    | bound =>
      simp only [columns, addEntry, accountFor, term, kindOf, List.flatMap_append,
        List.flatMap_singleton, List.count_append, bindings_count, rights_count]
      -- Either the variable is new and the column is bound, or a condition is added for it.
      cases p.bindings.get? name with
      | none => simp; omega
      | some first => simp [List.count_singleton]; omega

theorem new_entry_index (p : JoinPlan) (t : Triple) (join : Option Condition) :
    (p, p.newEntry t join).2.index = p.nextIndex := rfl

theorem new_entry_count (p : JoinPlan) (t : Triple) (join : Option Condition) (kind : Kind)
    (c : Column) :
    ((addEntry (p, p.newEntry t join)).columns kind).count c =
      (p.columns kind).count c +
        if kind = .bound then (join.toList.map Condition.right).count c else 0 := by
  cases kind <;> simp [columns, addEntry, newEntry, Entry.rightSides, Nat.add_assoc]

theorem account_sides (t : Triple) (kind : Kind) (index : Nat) (role : Role) (c : Column) :
    (if ⟨index, role⟩ = c then accountFor t kind role else 0) +
        (if ⟨index, role.opposite⟩ = c then accountFor t kind role.opposite else 0) =
      if c.index = index then accountFor t kind c.role else 0 := by
  obtain ⟨number, side⟩ := c
  by_cases same : number = index
  · subst same
    cases role <;> cases side <;> simp [Role.opposite]
  · simp [same, Ne.symm same]

def accounted (ts : List Triple) (kind : Kind) (c : Column) : Nat :=
  match c.index with
  | 0 => 0
  | k + 1 => ts[k]?.elim 0 fun t => accountFor t kind c.role

theorem accounted_at (ts : List Triple) (kind : Kind) (k : Nat) (role : Role) :
    accounted ts kind ⟨k + 1, role⟩ = ts[k]?.elim 0 fun t => accountFor t kind role := rfl

theorem accounted_next (ts : List Triple) (t : Triple) (kind : Kind) (c : Column) :
    accounted (ts ++ [t]) kind c =
      accounted ts kind c + if c.index = ts.length + 1 then accountFor t kind c.role else 0 := by
  obtain ⟨index, role⟩ := c
  cases index with
  | zero => rfl
  | succ k =>
    simp only [accounted, Nat.add_right_cancel_iff]
    rcases Nat.lt_trichotomy k ts.length with before | rfl | after
    · rw [List.getElem?_append_left before, if_neg (Nat.ne_of_lt before), Nat.add_zero]
    · simp
    · rw [List.getElem?_eq_none (by simp; omega), List.getElem?_eq_none (by omega),
        if_neg (Nat.ne_of_gt after), Nat.add_zero]

def Accounted (p : JoinPlan) (ts : List Triple) : Prop :=
  ∀ kind c, (p.columns kind).count c = accounted ts kind c

theorem accounted_nil : Accounted {} [] := by
  intro kind c
  cases c with
  | mk index role => cases kind <;> cases index <;> rfl

theorem accounted_add {p q : JoinPlan} {ts : List Triple} {t : Triple} (role : Role)
    (before : Accounted p ts) (index : p.nextIndex = ts.length + 1)
    (sides : ∀ kind c, (q.columns kind).count c = (p.columns kind).count c +
      ((if ⟨p.nextIndex, role⟩ = c then accountFor t kind role else 0) +
        if ⟨p.nextIndex, role.opposite⟩ = c then accountFor t kind role.opposite else 0)) :
    Accounted q (ts ++ [t]) := by
  intro kind c
  rw [sides, before kind c, account_sides, index, accounted_next]

theorem place_anchor_accounted (t : Triple) : Accounted (placeAnchor {} t) [t] := by
  refine accounted_add .subject accounted_nil rfl fun kind c => ?_
  have index : (bindSide t .subject ({}, newEntry {} t none)).2.index = nextIndex {} :=
    (bind_side_entry t .subject ({}, newEntry {} t none)).2.1
  have other : Role.opposite .subject = .object := rfl
  rw [placeAnchor, bind_side_count, bind_side_count, new_entry_count, index, new_entry_index, other]
  simp [Nat.add_assoc]

-- The join stands for the side that the triple is placed by.
theorem try_place_accounted {p next : JoinPlan} {ts : List Triple} {t : Triple}
    (before : Accounted p ts) (index : p.nextIndex = ts.length + 1)
    (step : p.tryPlace? t = some next) : Accounted next (ts ++ [t]) := by
  obtain ⟨⟨role, column⟩, side, rfl⟩ := Option.map_eq_some_iff.mp step
  obtain ⟨name, term, -⟩ := join_side_bound side
  refine accounted_add role before index fun kind c => ?_
  have joined : accountFor t kind role = if kind = .bound then 1 else 0 := by
    cases kind <;> simp [accountFor, term, kindOf]
  rw [bind_side_count, new_entry_count, new_entry_index, Nat.add_assoc, joined]
  cases kind <;> simp [List.count_singleton]

theorem run_accounted {p q : JoinPlan} {ts : List Triple} {placed : List (Triple × Nat)}
    (before : Placed p ts) (accounted : Accounted p ts) (run : Run p placed q) :
    Accounted q (ts ++ placed.map Prod.fst) := by
  induction run generalizing ts with
  | done => simpa using accounted
  | step step _ ih =>
    have next := try_place_accounted accounted (by rw [nextIndex, placed_length before]) step
    simpa using ih (try_place_placed before step) next

end JoinPlan

/-! ### The order of the triples -/

-- From the given position on, each triple shares a variable with one before it.
def Chained (triples : List Triple) (start : Nat) : Prop :=
  ∀ k, start ≤ k → k < triples.length → ∃ j < k, Adjacent triples j k

namespace JoinPlan

theorem chained_placeable {p : JoinPlan} {ts rest : List Triple} {t : Triple} (placed : Placed p ts)
    (chained : Chained (ts ++ t :: rest) ts.length) : p.tryPlace? t ≠ none := by
  obtain ⟨j, before, name, first, second⟩ := chained ts.length (Nat.le_refl _) (by simp)
  obtain ⟨s, at_j, in_s⟩ := first
  obtain ⟨u, at_end, in_u⟩ := second
  rw [List.getElem?_append_left before] at at_j
  obtain rfl : t = u := by simpa using at_end
  exact known_placeable (placed.known s (List.mem_of_getElem? at_j)) in_s in_u

theorem pass_chained {p : JoinPlan} {ts : List Triple} {pending : List (Triple × Nat)}
    (placed : Placed p ts) (chained : Chained (ts ++ pending.map Prod.fst) ts.length) :
    (p.pass pending).2 = [] := by
  induction pending generalizing p ts with
  | nil => rfl
  | cons entry rest ih =>
    obtain ⟨next, step⟩ := Option.ne_none_iff_exists'.mp (chained_placeable placed chained)
    simp only [pass, step]
    refine ih (try_place_placed placed step) fun k after inside => ?_
    rw [List.append_assoc] at inside ⊢
    rw [List.length_append] at after
    exact chained k (by omega) inside

theorem passes_chained {n : Nat} {p q : JoinPlan} {ts : List Triple} {pending : List (Triple × Nat)}
    (placed : Placed p ts) (chained : Chained (ts ++ pending.map Prod.fst) ts.length)
    (passed : passUpTo n p pending = .ok q) : Run p pending q := by
  cases pending with
  | nil =>
    obtain ⟨done, run, perm⟩ := passes_run passed
    rwa [perm.eq_nil] at run
  | cons entry rest =>
    cases n with
    | zero => cases passed
    | succ n =>
      -- The first pass leaves no triple behind, so it has placed the sequence as it stands.
      have finished := pass_chained placed chained
      rw [passUpTo] at passed
      cases whole : p.pass (entry :: rest) with
      | mk final waiting =>
        rw [whole] at finished
        obtain rfl : waiting = [] := finished
        obtain ⟨early, run, within, perm⟩ := pass_run whole
        rw [List.append_nil] at perm
        obtain rfl := within.eq_of_length perm.length_eq
        simp only [whole, List.length_nil, if_neg (Nat.succ_ne_zero rest.length).symm, passUpTo]
          at passed
        obtain rfl := Except.ok.inj passed
        exact run

end JoinPlan

/-! ### The plan as a whole -/

-- What the plan has for the triple that is placed behind `k` others.
structure Accounts (plan : JoinPlan) (k : Nat) (t : Triple) : Prop where
  entry : ∃ entry, plan.entries[k]? = some entry ∧ entry.index = k + 1 ∧
    t.table? = some entry.table ∧ (entry.join.isSome ↔ 0 < k)
  columns : ∀ role kind, (plan.columns kind).count ⟨k + 1, role⟩ =
    if kindOf (termAt t role) = kind then 1 else 0

section
variable {plan : JoinPlan} {ts : List Triple} (placed : JoinPlan.Placed plan ts)

include placed

theorem entry_numbered {k : Nat} {entry : Entry} (at_k : plan.entries[k]? = some entry) :
    entry.index = k + 1 := by
  have numbered := congrArg (·[k]?) placed.numbered
  have inside := (List.getElem?_eq_some_iff.mp at_k).1
  rw [JoinPlan.placed_length placed] at inside
  simpa [at_k, List.getElem?_range' inside, Nat.add_comm] using numbered

theorem entry_table {k : Nat} {entry : Entry} {t : Triple} (at_k : plan.entries[k]? = some entry)
    (triple : ts[k]? = some t) : entry.table = tableOf t := by
  have tables := congrArg (·[k]?) placed.tables
  simpa [at_k, triple] using tables

theorem entry_joined (inhabited : ts ≠ []) {k : Nat} {entry : Entry}
    (at_k : plan.entries[k]? = some entry) : entry.join.isSome ↔ 0 < k := by
  obtain ⟨root, rest, entries, anchored, joined⟩ := JoinPlan.placed_root placed inhabited
  rw [entries] at at_k
  cases k with
  | zero =>
    obtain rfl := Option.some.inj at_k
    simp [anchored]
  | succ k => simp [joined entry (List.mem_of_getElem? at_k)]

theorem join_count (inhabited : ts ≠ []) : plan.joinCount = ts.length - 1 := by
  obtain ⟨root, rest, entries, anchored, joined⟩ := JoinPlan.placed_root placed inhabited
  rw [← JoinPlan.placed_length placed, JoinPlan.joinCount, entries, List.countP_cons, anchored,
    List.countP_eq_length.mpr joined]
  rfl

theorem placed_accounts (accounted : JoinPlan.Accounted plan ts)
    (named : ∀ t ∈ ts, t.table? = some (tableOf t)) {k : Nat} {t : Triple}
    (at_k : ts[k]? = some t) : Accounts plan k t := by
  have inside := (List.getElem?_eq_some_iff.mp at_k).1
  rw [← JoinPlan.placed_length placed] at inside
  have here := List.getElem?_eq_getElem inside
  have member := List.mem_of_getElem? at_k
  constructor
  · refine ⟨plan.entries[k], here, entry_numbered placed here, ?_,
      entry_joined placed (List.ne_nil_of_mem member) here⟩
    rw [entry_table placed here at_k]
    exact named t member
  · intro role kind
    rw [accounted kind ⟨k + 1, role⟩, JoinPlan.accounted_at, at_k, Option.elim_some]
    rfl

end

theorem accounted_within {plan : JoinPlan} {ts : List Triple}
    (accounted : JoinPlan.Accounted plan ts) {kind : Kind} {c : Column}
    (member : c ∈ plan.columns kind) : c.Within ts.length := by
  have positive := List.count_pos_iff.mpr member
  rw [accounted kind c] at positive
  obtain ⟨index, role⟩ := c
  cases index with
  | zero => cases positive
  | succ k =>
    rw [JoinPlan.accounted_at] at positive
    refine ⟨Nat.le_add_left 1 k, ?_⟩
    by_contra outside
    rw [List.getElem?_eq_none (Nat.lt_succ_iff.mp (Nat.not_le.mp outside))] at positive
    cases positive

-- The triples with their numbers, in the order in which they are placed.
theorem resolve_order {triples : List Triple} {plan : JoinPlan}
    (resolved : resolve triples = .ok plan) :
    ∃ ordered : List (Triple × Nat), JoinPlan.Placed plan (ordered.map Prod.fst) ∧
      JoinPlan.Accounted plan (ordered.map Prod.fst) ∧ ordered.Perm triples.zipIdx ∧
      ordered.head? = triples.zipIdx.head? ∧ (Chained triples 1 → ordered = triples.zipIdx) := by
  obtain ⟨anchor, rest, rfl, -, -, -, passed⟩ := resolve_accepted resolved
  have before := JoinPlan.place_anchor_placed anchor
  have accounted := JoinPlan.place_anchor_accounted anchor
  by_cases chained : Chained (anchor :: rest) 1
  · have run := JoinPlan.passes_chained before (by simpa using chained) passed
    exact ⟨(anchor, 0) :: rest.zipIdx 1, JoinPlan.run_placed before run,
      JoinPlan.run_accounted before accounted run, .rfl, rfl, fun _ => rfl⟩
  · obtain ⟨placed, run, perm⟩ := JoinPlan.passes_run passed
    exact ⟨(anchor, 0) :: placed, JoinPlan.run_placed before run,
      JoinPlan.run_accounted before accounted run, perm.cons _, rfl,
      fun kept => absurd kept chained⟩

theorem terms_accounted {triples : List Triple} {plan : JoinPlan}
    (resolved : resolve triples = .ok plan) :
    plan.entries.length = triples.length ∧ plan.joinCount = triples.length - 1 ∧
      (∀ kind, ∀ c ∈ plan.columns kind, c.Within triples.length) ∧
      ∃ order : List Nat, order.Perm (List.range triples.length) ∧ order.head? = some 0 ∧
        (∀ k i, order[k]? = some i → ∃ t, triples[i]? = some t ∧ Accounts plan k t) ∧
        (Chained triples 1 → order = List.range triples.length) := by
  obtain ⟨ordered, placed, accounted, perm, head, kept⟩ := resolve_order resolved
  obtain ⟨anchor, rest, same, named, -⟩ := resolve_accepted resolved
  have length : (ordered.map Prod.fst).length = triples.length := by simpa using perm.length_eq
  have inhabited : ordered.map Prod.fst ≠ [] := by
    rw [← List.length_pos_iff, length, same]
    exact Nat.succ_pos _
  have range : triples.zipIdx.map Prod.snd = List.range triples.length := by
    rw [List.zipIdx_map_snd, List.range_eq_range']
  have size := (JoinPlan.placed_length placed).trans length
  refine ⟨size, ?_, ?_, ordered.map Prod.snd, ?_, ?_, ?_, ?_⟩
  · rw [join_count placed inhabited, length]
  · intro kind c member
    rw [← length]
    exact accounted_within accounted member
  · rw [← range]
    exact perm.map Prod.snd
  · rw [List.head?_map, head, same]
    rfl
  · intro k i at_k
    rw [List.getElem?_map] at at_k
    obtain ⟨⟨t, number⟩, here, rfl⟩ := Option.map_eq_some_iff.mp at_k
    have triple : triples[number]? = some t :=
      List.mem_zipIdx_iff_getElem?.mp (perm.mem_iff.mp (List.mem_of_getElem? here))
    refine ⟨t, triple, placed_accounts placed accounted (fun s member => ?_) (by simp [here])⟩
    obtain ⟨⟨u, other⟩, among, rfl⟩ := List.mem_map.mp member
    have stands := List.mem_zipIdx_iff_getElem?.mp (perm.mem_iff.mp among)
    exact named u (List.mem_of_getElem? stands)
  · intro chained
    rw [kept chained, range]

theorem late_chained : Chained (early :: late.reverse) 1 := by
  intro k start inside
  have two : k = 1 ∨ k = 2 := by
    have size : (early :: late.reverse).length = 3 := rfl
    omega
  rcases two with rfl | rfl
  · exact ⟨0, by decide, ['b'], ⟨_, rfl, by decide⟩, ⟨_, rfl, by decide⟩⟩
  · exact ⟨1, by decide, ['c'], ⟨_, rfl, by decide⟩, ⟨_, rfl, by decide⟩⟩

-- Written in one order the triples stay where they are, in the other the last two change places.
theorem chain_accounted :
    (∃ plan, resolve (early :: late.reverse) = .ok plan ∧
      ∀ k t, (early :: late.reverse)[k]? = some t → Accounts plan k t) ∧
    ∃ plan, ∃ order : List Nat, resolve (early :: late) = .ok plan ∧ plan.joinCount = 2 ∧
      order.Perm (List.range 3) ∧
      ∀ k i, order[k]? = some i → ∃ t, (early :: late)[i]? = some t ∧ Accounts plan k t := by
  constructor
  · obtain ⟨plan, resolved⟩ : ∃ plan, resolve (early :: late.reverse) = .ok plan := ⟨_, rfl⟩
    obtain ⟨-, -, -, order, -, -, accounts, kept⟩ := terms_accounted resolved
    refine ⟨plan, resolved, fun k t at_k => ?_⟩
    have inside := (List.getElem?_eq_some_iff.mp at_k).1
    have numbered : order[k]? = some k := by rw [kept late_chained, List.getElem?_range inside]
    obtain ⟨s, same, accounted⟩ := accounts k k numbered
    obtain rfl := Option.some.inj (at_k.symm.trans same)
    exact accounted
  · obtain ⟨plan, resolved⟩ : ∃ plan, resolve (early :: late) = .ok plan := ⟨_, rfl⟩
    obtain ⟨-, joins, -, order, perm, -, accounts, -⟩ := terms_accounted resolved
    exact ⟨plan, order, resolved, joins, perm, accounts⟩

end TripleTable.Plan
