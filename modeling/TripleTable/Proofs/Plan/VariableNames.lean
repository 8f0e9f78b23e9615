import Mathlib.Data.Set.Function
import TripleTable.Proofs.Plan.Answers
import TripleTable.Proofs.Plan.Classification
set_option autoImplicit false

/-!
Plans under other names for the variables. Names are compared with each other and with nothing else,
so triples whose variables are renamed, different names to different ones, have the same defect or
the same plan, with the new names in its bindings.
-/
namespace TripleTable.Pattern

def Term.rename (r : Text → Text) : Term → Term
  | .variable name => .variable (r name)
  | .constant text => .constant text

def Triple.rename (r : Text → Text) (t : Triple) : Triple :=
  ⟨t.subject.rename r, t.predicate.rename r, t.object.rename r⟩

-- The variables that join triples: a variable predicate is none of them.
def namesOf (triples : List Triple) : Set Text := {name | ∃ t ∈ triples, name ∈ t.variableNames}

section
variable {r : Text → Text} {triples : List Triple}

theorem table_rename (t : Triple) : (t.rename r).table? = t.table? := by
  obtain ⟨subject, predicate, object⟩ := t
  cases predicate <;> rfl

theorem variable_names_rename (t : Triple) :
    (t.rename r).variableNames = t.variableNames.map r := by
  obtain ⟨subject, predicate, object⟩ := t
  cases subject <;> cases object <;> rfl

theorem occurs_named {index : Nat} {name : Text} (occurs : Occurs triples index name) :
    name ∈ namesOf triples := by
  obtain ⟨t, found, named⟩ := occurs
  exact ⟨t, List.mem_of_getElem? found, named⟩

theorem occurs_rename (index : Nat) (name : Text) :
    Occurs (triples.map (Triple.rename r)) index name ↔
      ∃ old, Occurs triples index old ∧ r old = name := by
  unfold Occurs
  rw [List.getElem?_map]
  cases triples[index]? with
  | none => simp
  | some t => simp [variable_names_rename]

theorem adjacent_rename (injective : Set.InjOn r (namesOf triples)) :
    Adjacent (triples.map (Triple.rename r)) = Adjacent triples := by
  funext i j
  apply propext
  constructor
  · rintro ⟨name, here, there⟩
    obtain ⟨old, first, rfl⟩ := (occurs_rename i name).mp here
    obtain ⟨other, second, same⟩ := (occurs_rename j (r old)).mp there
    obtain rfl := injective (occurs_named second) (occurs_named first) same
    exact ⟨other, first, second⟩
  · rintro ⟨name, here, there⟩
    exact ⟨r name, (occurs_rename i _).mpr ⟨name, here, rfl⟩,
      (occurs_rename j _).mpr ⟨name, there, rfl⟩⟩

theorem check_connected_rename (injective : Set.InjOn r (namesOf triples)) :
    checkConnected (triples.map (Triple.rename r)) = checkConnected triples := by
  apply check_connected_alike
  simp only [unreachable, Reachable, adjacent_rename injective, List.length_map]

end

end TripleTable.Pattern

namespace TripleTable.Plan
open Pattern (Term Triple Defect checkConnected namesOf)

def Bindings.rename (r : Text → Text) (b : Bindings) : Bindings :=
  b.map fun (name, column) => (r name, column)

def JoinPlan.rename (r : Text → Text) (p : JoinPlan) : JoinPlan :=
  { p with bindings := p.bindings.rename r }

def Bindings.Among (names : Set Text) (b : Bindings) : Prop := ∀ bound ∈ b, bound.1 ∈ names

def NamedAmong (names : Set Text) (t : Triple) : Prop := ∀ name ∈ t.variableNames, name ∈ names

section
variable {r : Text → Text} {names : Set Text}

namespace Bindings
variable {b : Bindings} {name : Text}

theorem bind_among (among : b.Among names) (member : name ∈ names) (column : Column) :
    (b.bind name column).2.Among names := by
  unfold bind
  cases b.get? name with
  | some bound => exact among
  | none => exact List.forall_mem_append.mpr ⟨among, List.forall_mem_singleton.mpr member⟩

-- A look-up compares names of the same set only, which the renaming keeps apart.
theorem get_rename (injective : Set.InjOn r names) (among : b.Among names) (member : name ∈ names) :
    (b.rename r).get? (r name) = b.get? name := by
  induction b with
  | nil => rfl
  | cons bound rest ih =>
    obtain ⟨key, column⟩ := bound
    obtain ⟨here, others⟩ := List.forall_mem_cons.mp among
    have found := ih others
    simp only [rename, get?, List.map_cons, List.lookup_cons] at found ⊢
    by_cases same : name = key
    · rw [same, beq_self_eq_true, beq_self_eq_true]
    · have apart : r name ≠ r key := fun equal => same (injective member here equal)
      rw [beq_eq_false_iff_ne.mpr same, beq_eq_false_iff_ne.mpr apart]
      exact found

theorem bind_rename (injective : Set.InjOn r names) (among : b.Among names)
    (member : name ∈ names) (column : Column) :
    (b.rename r).bind (r name) column =
      ((b.bind name column).1, (b.bind name column).2.rename r) := by
  unfold bind
  rw [get_rename injective among member]
  cases b.get? name with
  | some bound => rfl
  | none => simp [rename]

end Bindings

namespace JoinPlan
variable {p : JoinPlan} {t : Triple} {waiting : List (Triple × Nat)}

theorem term_rename (t : Triple) (role : Role) :
    termAt (t.rename r) role = (termAt t role).rename r := by
  cases role <;> rfl

theorem term_among {role : Role} {name : Text} (named : NamedAmong names t)
    (term : termAt t role = .variable name) : name ∈ names :=
  named name ((variable_names t name).mpr ⟨role, term⟩)

theorem bind_side_among {state : JoinPlan × Entry} (among : state.1.bindings.Among names)
    (named : NamedAmong names t) (role : Role) :
    (bindSide t role state).1.bindings.Among names := by
  obtain ⟨p, entry⟩ := state
  rcases side_cases t role with ⟨text, term⟩ | ⟨name, term⟩
  · rw [bind_side_constant term]
    exact among
  · rw [bind_side_variable term]
    exact Bindings.bind_among among (term_among named term) _

theorem place_anchor_among (named : NamedAmong names t) :
    (placeAnchor {} t).bindings.Among names := by
  have empty : Bindings.Among names [] := by simp [Bindings.Among]
  exact bind_side_among (bind_side_among empty named .subject) named .object

theorem try_place_among {next : JoinPlan} (among : p.bindings.Among names)
    (named : NamedAmong names t) (step : p.tryPlace? t = some next) :
    next.bindings.Among names := by
  obtain ⟨⟨role, column⟩, -, rfl⟩ := Option.map_eq_some_iff.mp step
  exact bind_side_among among named role.opposite

theorem pass_among (among : p.bindings.Among names)
    (named : ∀ entry ∈ waiting, NamedAmong names entry.1) :
    (p.pass waiting).1.bindings.Among names ∧
      ∀ entry ∈ (p.pass waiting).2, NamedAmong names entry.1 := by
  induction waiting generalizing p with
  | nil => exact ⟨among, named⟩
  | cons entry rest ih =>
    obtain ⟨here, others⟩ := List.forall_mem_cons.mp named
    rw [pass]
    cases step : p.tryPlace? entry.1 with
    | some next => exact ih (try_place_among among here step) others
    | none =>
      obtain ⟨placed, left⟩ := ih among others
      exact ⟨placed, List.forall_mem_cons.mpr ⟨here, left⟩⟩

/-! ### The two runs, step by step -/

def renameState (r : Text → Text) (state : JoinPlan × Entry) : JoinPlan × Entry :=
  (state.1.rename r, state.2)

def renameWaiting (r : Text → Text) (waiting : List (Triple × Nat)) : List (Triple × Nat) :=
  waiting.map fun (t, index) => (t.rename r, index)

theorem new_entry_rename (p : JoinPlan) (t : Triple) (join : Option Condition) :
    (p.rename r).newEntry (t.rename r) join = p.newEntry t join := by
  rw [newEntry, Pattern.table_rename]
  rfl

section
variable (injective : Set.InjOn r names)
include injective

theorem bind_side_rename {state : JoinPlan × Entry} (among : state.1.bindings.Among names)
    (named : NamedAmong names t) (role : Role) :
    bindSide (t.rename r) role (renameState r state) = renameState r (bindSide t role state) := by
  obtain ⟨p, entry⟩ := state
  have renamed := term_rename (r := r) t role
  rcases side_cases t role with ⟨text, term⟩ | ⟨name, term⟩
  · rw [term] at renamed
    rw [bind_side_constant term, renameState, bind_side_constant renamed]
    rfl
  · rw [term] at renamed
    have member := term_among named term
    have found := Bindings.get_rename injective among member
    have bound := Bindings.bind_rename injective among member ⟨entry.index, role⟩
    rw [bind_side_variable term, renameState, bind_side_variable renamed]
    simp only [rename, renameState, found, bound]

theorem place_anchor_rename (named : NamedAmong names t) :
    placeAnchor {} (t.rename r) = (placeAnchor {} t).rename r := by
  let start : JoinPlan × Entry := ({}, newEntry {} t none)
  have among : start.1.bindings.Among names := by simp [Bindings.Among, start]
  have subject := bind_side_rename injective among named .subject
  have object := bind_side_rename injective (bind_side_among among named .subject) named .object
  rw [← subject] at object
  have entry : newEntry {} (t.rename r) none = newEntry {} t none := new_entry_rename {} t none
  rw [placeAnchor, entry]
  exact congrArg addEntry object

theorem bound_rename {term : Term} (among : p.bindings.Among names)
    (named : ∀ name, term = .variable name → name ∈ names) :
    (p.rename r).bound? (term.rename r) = p.bound? term := by
  cases term with
  | constant text => rfl
  | «variable» name => exact Bindings.get_rename injective among (named name rfl)

theorem join_side_rename (among : p.bindings.Among names) (named : NamedAmong names t) :
    (p.rename r).joinSide? (t.rename r) = p.joinSide? t := by
  have each : ∀ role, (p.rename r).bound? ((termAt t role).rename r) = p.bound? (termAt t role) :=
    fun role => bound_rename injective among fun name term => term_among named term
  have subject := each .subject
  have object := each .object
  simp only [termAt] at subject object
  rw [joinSide?, joinSide?, ← subject, ← object]
  rfl

theorem try_place_rename (among : p.bindings.Among names) (named : NamedAmong names t) :
    (p.rename r).tryPlace? (t.rename r) = (p.tryPlace? t).map (rename r) := by
  rw [tryPlace?, tryPlace?, join_side_rename injective among named]
  cases p.joinSide? t with
  | none => rfl
  | some side =>
    obtain ⟨role, column⟩ := side
    let start : JoinPlan × Entry := (p, p.newEntry t (some ⟨column, ⟨p.nextIndex, role⟩⟩))
    have same : start.1.bindings.Among names := among
    have step := bind_side_rename injective same named role.opposite
    simp only [Option.map_some, new_entry_rename]
    exact congrArg (some ∘ addEntry) step

theorem pass_rename (among : p.bindings.Among names)
    (named : ∀ entry ∈ waiting, NamedAmong names entry.1) :
    (p.rename r).pass (renameWaiting r waiting) =
      ((p.pass waiting).1.rename r, renameWaiting r (p.pass waiting).2) := by
  induction waiting generalizing p with
  | nil => rfl
  | cons entry rest ih =>
    obtain ⟨t, index⟩ := entry
    obtain ⟨here, others⟩ := List.forall_mem_cons.mp named
    have placed := try_place_rename injective among here
    rw [pass, renameWaiting, List.map_cons, pass, placed]
    cases step : p.tryPlace? t with
    | some next => exact ih (try_place_among among here step) others
    | none =>
      have later := ih among others
      rw [renameWaiting] at later
      simp only [Option.map_none, later]
      rfl

theorem passes_rename {n : Nat} (among : p.bindings.Among names)
    (named : ∀ entry ∈ waiting, NamedAmong names entry.1) :
    passUpTo n (p.rename r) (renameWaiting r waiting) = (passUpTo n p waiting).map (rename r) := by
  induction n generalizing p waiting with
  | zero => cases waiting <;> rfl
  | succ n ih =>
    cases waiting with
    | nil => rfl
    | cons entry rest =>
      obtain ⟨t, index⟩ := entry
      have whole := pass_rename injective among named
      obtain ⟨placed, left⟩ := pass_among among named
      rw [renameWaiting, List.map_cons] at whole ⊢
      rw [passUpTo, passUpTo, whole]
      simp only [renameWaiting, List.length_map]
      by_cases stuck : (p.pass ((t, index) :: rest)).2.length = rest.length + 1
      · rw [if_pos stuck, if_pos stuck]
        rfl
      · rw [if_neg stuck, if_neg stuck]
        exact ih placed left

end

end JoinPlan

end

theorem predicate_rename (triples : List Triple) (r : Text → Text) :
    (triples.map (Triple.rename r)).findIdx? (fun t => t.table?.isNone) =
      triples.findIdx? fun t => t.table?.isNone := by
  rw [List.findIdx?_map]
  congr 1
  funext t
  exact congrArg Option.isNone (Pattern.table_rename t)

theorem waiting_rename (triples : List Triple) (r : Text → Text) (start : Nat) :
    (triples.map (Triple.rename r)).zipIdx start =
      JoinPlan.renameWaiting r (triples.zipIdx start) := by
  rw [List.zipIdx_map]
  rfl

theorem resolve_renamed (triples : List Triple) (r : Text → Text)
    (injective : Set.InjOn r (namesOf triples)) :
    resolve (triples.map (Triple.rename r)) = (resolve triples).map (JoinPlan.rename r) := by
  cases triples with
  | nil => rfl
  | cons anchor rest =>
    have named : ∀ t ∈ anchor :: rest, NamedAmong (namesOf (anchor :: rest)) t :=
      fun t member name inside => ⟨t, member, inside⟩
    obtain ⟨first, others⟩ := List.forall_mem_cons.mp named
    have predicates := predicate_rename (anchor :: rest) r
    have connected := Pattern.check_connected_rename injective
    have ground : (anchor.rename r).variableNames = [] ↔ anchor.variableNames = [] := by
      rw [Pattern.variable_names_rename, List.map_eq_nil_iff]
    have waiting : ∀ entry ∈ rest.zipIdx 1, NamedAmong (namesOf (anchor :: rest)) entry.1 :=
      fun entry member => others entry.1 (List.fst_mem_of_mem_zipIdx member)
    have passed := JoinPlan.passes_rename injective (n := rest.length)
      (JoinPlan.place_anchor_among first) waiting
    rw [← JoinPlan.place_anchor_rename injective first, ← waiting_rename] at passed
    rw [List.map_cons] at predicates connected ⊢
    simp only [resolve, predicates, connected, ground, List.length_map, passed]
    split
    · rfl
    · split
      · rfl
      · split <;> rfl

-- Each name of `cycle` becomes the next one. Names that the pattern does not have may fall
-- together with them.
def turned (name : Text) : Text :=
  if name = ['x'] then ['y'] else if name = ['y'] then ['z'] else ['x']

theorem turned_cycle_planned :
    Set.InjOn turned (namesOf cycle) ∧
      resolve (cycle.map (Triple.rename turned)) = .ok (cyclePlan.rename turned) := by
  have listed : ∀ t ∈ cycle, ∀ name ∈ t.variableNames, name ∈ [['x'], ['y'], ['z']] := by decide
  have apart : ∀ name ∈ [['x'], ['y'], ['z']], ∀ other ∈ [['x'], ['y'], ['z']],
      turned name = turned other → name = other := by decide
  have injective : Set.InjOn turned (namesOf cycle) := by
    rintro name ⟨s, in_s, here⟩ other ⟨t, in_t, there⟩ same
    exact apart name (listed s in_s name here) other (listed t in_t other there) same
  refine ⟨injective, ?_⟩
  rw [resolve_renamed cycle turned injective]
  rfl

end TripleTable.Plan
