import Mathlib.Order.Nat
import TripleTable.Proofs.Pattern.Connectivity
import TripleTable.Proofs.Plan.Placement
set_option autoImplicit false

/-!
Which triples have a join plan, and why the others have none. Connected triples are always placed:
a triple that waits is reached over some triple whose variables are bound, and every pass places
at least one.
-/
namespace TripleTable.Plan
open Pattern (Term Triple Defect Occurs Adjacent Reachable unreachable checkConnected)

theorem variable_names (t : Triple) (name : Text) :
    name ∈ t.variableNames ↔ ∃ role, termAt t role = .variable name := by
  have of_term : ∀ term : Term, term.variable? = some name ↔ term = .variable name := by
    intro term
    cases term <;> simp [ Term.variable?]
  simp only [Triple.variableNames, List.mem_filterMap, List.mem_cons, List.not_mem_nil, or_false,
    of_term]
  constructor
  · rintro ⟨term, rfl | rfl, same⟩
    · exact ⟨.subject, same⟩
    · exact ⟨.object, same⟩
  · rintro ⟨role, same⟩
    cases role with
    | subject => exact ⟨t.subject, .inl rfl, same⟩
    | object => exact ⟨t.object, .inr rfl, same⟩

namespace JoinPlan
variable {p : JoinPlan} {anchor : Triple} {rest : List Triple} {waiting : List (Triple × Nat)}

theorem try_place_none (t : Triple) :
    p.tryPlace? t = none ↔ ∀ name ∈ t.variableNames, p.bindings.get? name = none := by
  have of_bound : ∀ term : Term, p.bound? term = none ↔
      ∀ name, term = .variable name → p.bindings.get? name = none := by
    intro term
    cases term <;> simp [bound?, Term.variable?]
  have of_names : (∀ name ∈ t.variableNames, p.bindings.get? name = none) ↔
      p.bound? t.subject = none ∧ p.bound? t.object = none := by
    simp only [variable_names, of_bound]
    constructor
    · intro all
      exact ⟨fun name same => all name ⟨.subject, same⟩,
        fun name same => all name ⟨.object, same⟩⟩
    · rintro ⟨subject, object⟩ name ⟨role, same⟩
      cases role with
      | subject => exact subject name same
      | object => exact object name same
  rw [of_names, tryPlace?, Option.map_eq_none_iff, joinSide?]
  cases p.bound? t.subject <;> simp

-- A triple can be placed once a variable of it is known.
theorem known_placeable {s t : Triple} {name : Text} (knows : Knows p.bindings s)
    (in_s : name ∈ s.variableNames) (in_t : name ∈ t.variableNames) : p.tryPlace? t ≠ none := by
  intro stuck
  obtain ⟨role, term⟩ := (variable_names s name).mp in_s
  have bound := knows role name term
  rw [(try_place_none t).mp stuck name in_t] at bound
  cases bound

theorem pass_length (p : JoinPlan) (waiting : List (Triple × Nat)) :
    (p.pass waiting).2.length ≤ waiting.length := by
  induction waiting generalizing p with
  | nil => exact Nat.le_refl _
  | cons entry rest ih =>
    obtain ⟨t, index⟩ := entry
    unfold pass
    cases p.tryPlace? t with
    | some placed => exact Nat.le_succ_of_le (ih placed)
    | none => exact Nat.succ_le_succ (ih p)

-- Before the first triple that can be placed, a pass changes nothing.
theorem pass_places {entry : Triple × Nat} (member : entry ∈ waiting)
    (placeable : p.tryPlace? entry.1 ≠ none) :
    (p.pass waiting).2.length < waiting.length := by
  induction waiting with
  | nil => cases member
  | cons first rest ih =>
    obtain ⟨t, index⟩ := first
    unfold pass
    cases step : p.tryPlace? t with
    | some placed => exact Nat.lt_succ_of_le (pass_length placed rest)
    | none =>
      rcases List.mem_cons.mp member with rfl | later
      · exact absurd step placeable
      · exact Nat.succ_lt_succ (ih later)

-- What the rounds keep: the anchor and some other triples are placed, the others wait.
def Stage (anchor : Triple) (rest : List Triple) (p : JoinPlan) (waiting : List (Triple × Nat)) :
    Prop :=
  ∃ placed, Placed p (anchor :: placed) ∧ (placed ++ waiting.map Prod.fst).Perm rest

theorem stage_start (anchor : Triple) (rest : List Triple) :
    Stage anchor rest (placeAnchor {} anchor) (rest.zipIdx 1) :=
  ⟨[], place_anchor_placed anchor, by simp⟩

theorem stage_next (stage : Stage anchor rest p waiting) :
    Stage anchor rest (p.pass waiting).1 (p.pass waiting).2 := by
  obtain ⟨placed, before, perm⟩ := stage
  obtain ⟨more, after, split⟩ := pass_placed before (Prod.mk.eta (p := p.pass waiting)).symm
  refine ⟨placed ++ more, by simpa using after, ?_⟩
  rw [List.append_assoc]
  exact (split.append_left placed).trans perm

theorem stage_knows (stage : Stage anchor rest p waiting)
    (stuck : ∀ entry ∈ waiting, p.tryPlace? entry.1 = none) {i : Nat}
    (reachable : Reachable (anchor :: rest) 0 i) {t : Triple}
    (at_index : (anchor :: rest)[i]? = some t) : Knows p.bindings t := by
  obtain ⟨placed, before, perm⟩ := stage
  induction reachable generalizing t with
  | refl =>
    obtain rfl : anchor = t := by simpa using at_index
    exact before.known anchor List.mem_cons_self
  | @tail j i _ edge ih =>
    obtain ⟨name, ⟨s, at_j, in_s⟩, u, at_i, in_u⟩ := edge
    obtain rfl := Option.some.inj (at_index.symm.trans at_i)
    have among : t ∈ anchor :: (placed ++ waiting.map Prod.fst) :=
      (perm.cons anchor).mem_iff.mpr (List.mem_of_getElem? at_index)
    rw [← List.cons_append] at among
    rcases List.mem_append.mp among with placed_before | waits
    · exact before.known t placed_before
    · obtain ⟨entry, member, rfl⟩ := List.mem_map.mp waits
      exact absurd (stuck entry member) (known_placeable (ih at_j) in_s in_u)

-- A waiting triple is reached over an edge, so it has a variable; if none could be placed, that
-- variable would have to be bound already.
theorem stage_progress (stage : Stage anchor rest p waiting)
    (connected : unreachable (anchor :: rest) = ∅) (inhabited : waiting ≠ []) :
    (p.pass waiting).2.length < waiting.length := by
  by_cases stuck : ∀ entry ∈ waiting, p.tryPlace? entry.1 = none
  · obtain ⟨entry, member⟩ := List.exists_mem_of_ne_nil waiting inhabited
    obtain ⟨placed, before, perm⟩ := stage
    have later : entry.1 ∈ rest := perm.mem_iff.mp
      (List.mem_append_right placed (List.mem_map_of_mem member))
    obtain ⟨k, at_k⟩ := List.mem_iff_getElem?.mp later
    have at_index : (anchor :: rest)[k + 1]? = some entry.1 := at_k
    have inside := (List.getElem?_eq_some_iff.mp at_index).1
    have reachable : Reachable (anchor :: rest) 0 (k + 1) := by
      by_contra apart
      exact Set.notMem_empty (k + 1) (connected ▸ ⟨inside, apart⟩)
    have knows := stage_knows ⟨placed, before, perm⟩ stuck reachable at_index
    cases reachable with
    | tail _ edge =>
      obtain ⟨name, -, t, same, named⟩ := edge
      obtain rfl := Option.some.inj (at_index.symm.trans same)
      exact absurd (stuck entry member) (known_placeable knows named named)
  · obtain ⟨entry, member, placeable⟩ : ∃ entry ∈ waiting, p.tryPlace? entry.1 ≠ none := by
      simpa using stuck
    exact pass_places member placeable

theorem passes_complete {n : Nat} (stage : Stage anchor rest p waiting)
    (connected : unreachable (anchor :: rest) = ∅) (enough : waiting.length ≤ n) :
    ∃ plan, passUpTo n p waiting = .ok plan := by
  induction n generalizing p waiting with
  | zero =>
    obtain rfl := List.eq_nil_of_length_eq_zero (Nat.le_zero.mp enough)
    exact ⟨p, rfl⟩
  | succ n ih =>
    cases waiting with
    | nil => exact ⟨p, rfl⟩
    | cons entry others =>
      have shorter := stage_progress stage connected (List.cons_ne_nil entry others)
      have next := stage_next stage
      obtain ⟨t, index⟩ := entry
      rw [List.length_cons] at shorter enough
      rw [passUpTo]
      simp only [if_neg (Nat.ne_of_lt shorter)]
      exact ih next (by omega)

end JoinPlan

def variablePredicates (triples : List Triple) : Set Nat :=
  {i | ∃ t name, triples[i]? = some t ∧ t.predicate = .variable name}

def Ground (t : Triple) : Prop :=
  ∃ subject object, t.subject = .constant subject ∧ t.object = .constant object

-- What becomes of triples: every defect is looked for once those before it are ruled out.
inductive Verdict (triples : List Triple) : Except Defect Unit → Prop
  | empty : triples = [] → Verdict triples (.error .empty)
  | variablePredicate {i : Nat} : IsLeast (variablePredicates triples) i →
      Verdict triples (.error (.variablePredicate i))
  | ground {anchor : Triple} : variablePredicates triples = ∅ → triples.head? = some anchor →
      Ground anchor → Verdict triples (.error (.bothTermsConcrete 0))
  | disconnected {anchor : Triple} {i : Nat} : variablePredicates triples = ∅ →
      triples.head? = some anchor → ¬ Ground anchor → IsLeast (unreachable triples) i →
      Verdict triples (.error (.disconnected i))
  | planned {anchor : Triple} : variablePredicates triples = ∅ → triples.head? = some anchor →
      ¬ Ground anchor → unreachable triples = ∅ → Verdict triples (.ok ())

theorem table_none (t : Triple) : t.table?.isNone ↔ ∃ name, t.predicate = .variable name := by
  unfold Triple.table?
  cases t.predicate <;> simp

theorem ground_names (t : Triple) : Ground t ↔ t.variableNames = [] := by
  obtain ⟨subject, predicate, object⟩ := t
  cases subject <;> cases object <;>
    simp [Ground, Triple.variableNames, Term.variable?]

theorem variable_predicate_found {triples : List Triple} {i : Nat} :
    triples.findIdx? (fun t => t.table?.isNone) = some i ↔
      IsLeast (variablePredicates triples) i := by
  rw [List.findIdx?_eq_some_iff_getElem]
  constructor
  · rintro ⟨inside, here, before⟩
    obtain ⟨name, term⟩ := (table_none _).mp here
    refine ⟨⟨_, name, List.getElem?_eq_getElem inside, term⟩, ?_⟩
    rintro j ⟨t, other, found, isVariable⟩
    by_contra earlier
    have less := Nat.not_le.mp earlier
    obtain ⟨within, rfl⟩ := List.getElem?_eq_some_iff.mp found
    exact before j less ((table_none _).mpr ⟨other, isVariable⟩)
  · rintro ⟨⟨t, name, found, term⟩, least⟩
    obtain ⟨inside, rfl⟩ := List.getElem?_eq_some_iff.mp found
    refine ⟨inside, (table_none _).mpr ⟨name, term⟩, fun j less here => ?_⟩
    obtain ⟨other, isVariable⟩ := (table_none _).mp here
    exact absurd (least ⟨_, other, List.getElem?_eq_getElem (by omega), isVariable⟩)
      (Nat.not_le.mpr less)

theorem no_variable_predicate {triples : List Triple} :
    triples.findIdx? (fun t => t.table?.isNone) = none ↔ variablePredicates triples = ∅ := by
  rw [List.findIdx?_eq_none_iff]
  constructor
  · intro all
    refine Set.eq_empty_of_forall_notMem ?_
    rintro i ⟨t, name, found, term⟩
    have missing := all t (List.mem_of_getElem? found)
    rw [(table_none t).mpr ⟨name, term⟩] at missing
    cases missing
  · intro empty t member
    by_contra missing
    obtain ⟨name, term⟩ := (table_none t).mp (by simpa using missing)
    obtain ⟨i, found⟩ := List.mem_iff_getElem?.mp member
    exact Set.notMem_empty i (empty ▸ ⟨t, name, found, term⟩)

-- How a pattern fares once its predicates are known to be constant.
theorem resolve_cons {anchor : Triple} {rest : List Triple}
    (constant : variablePredicates (anchor :: rest) = ∅) :
    resolve (anchor :: rest) =
      if anchor.variableNames = [] then .error (.bothTermsConcrete 0)
      else
        match checkConnected (anchor :: rest) with
        | .error defect => .error defect
        | .ok () => JoinPlan.passUpTo rest.length (.placeAnchor {} anchor) (rest.zipIdx 1) := by
  have scanned := no_variable_predicate.mpr constant
  unfold resolve
  generalize (anchor :: rest).findIdx? (fun t => t.table?.isNone) = found at scanned ⊢
  subst scanned
  rfl

theorem resolve_connected {anchor : Triple} {rest : List Triple}
    (constant : variablePredicates (anchor :: rest) = ∅) (notGround : ¬ Ground anchor)
    (connected : unreachable (anchor :: rest) = ∅) :
    ∃ plan, resolve (anchor :: rest) = .ok plan := by
  obtain ⟨plan, placed⟩ := JoinPlan.passes_complete (JoinPlan.stage_start anchor rest) connected
    (n := rest.length) (by simp)
  refine ⟨plan, ?_⟩
  rw [resolve_cons constant, if_neg (mt (ground_names anchor).mpr notGround),
    Pattern.check_connected_ok.mpr connected]
  exact placed

theorem resolve_verdict (triples : List Triple) :
    Verdict triples ((resolve triples).map fun _ => ()) := by
  cases triples with
  | nil => exact .empty rfl
  | cons anchor rest =>
    cases found : (anchor :: rest).findIdx? fun t => t.table?.isNone with
    | some i =>
      unfold resolve
      rw [found]
      exact .variablePredicate (variable_predicate_found.mp found)
    | none =>
      have constant := no_variable_predicate.mp found
      by_cases ground : Ground anchor
      · rw [resolve_cons constant, if_pos ((ground_names anchor).mp ground)]
        exact .ground constant rfl ground
      · cases checked : checkConnected (anchor :: rest) with
        | ok _ =>
          have connected := Pattern.check_connected_ok.mp checked
          obtain ⟨plan, planned⟩ := resolve_connected constant ground connected
          rw [planned]
          exact .planned constant rfl ground connected
        | error defect =>
          obtain ⟨i, rfl⟩ := Pattern.check_connected_defect checked
          rw [resolve_cons constant, if_neg (mt (ground_names anchor).mpr ground), checked]
          exact .disconnected constant rfl ground ((Pattern.check_connected_error i).mp checked)

theorem verdict_resolved {triples : List Triple} {verdict : Except Defect Unit}
    (judged : Verdict triples verdict) : (resolve triples).map (fun _ => ()) = verdict := by
  cases triples with
  | nil =>
    cases judged with
    | empty _ => rfl
    | variablePredicate least =>
      obtain ⟨⟨t, name, found, -⟩, -⟩ := least
      cases found
    | ground _ head _ => cases head
    | disconnected _ head _ _ => cases head
    | planned _ head _ _ => cases head
  | cons anchor rest =>
    cases judged with
    | empty none => cases none
    | variablePredicate least =>
      unfold resolve
      rw [variable_predicate_found.mpr least]
      rfl
    | ground constant head ground =>
      cases head
      rw [resolve_cons constant, if_pos ((ground_names anchor).mp ground)]
      rfl
    | disconnected constant head notGround least =>
      cases head
      rw [resolve_cons constant, if_neg (mt (ground_names anchor).mpr notGround),
        (Pattern.check_connected_error _).mpr least]
      rfl
    | planned constant head notGround connected =>
      cases head
      obtain ⟨plan, planned⟩ := resolve_connected constant notGround connected
      rw [planned]
      rfl

-- The state of the rounds after some of them.
def afterPasses (anchor : Triple) (rest : List Triple) (k : Nat) : JoinPlan × List (Triple × Nat) :=
  (fun state => state.1.pass state.2)^[k] (JoinPlan.placeAnchor {} anchor, rest.zipIdx 1)

theorem after_passes_stage (anchor : Triple) (rest : List Triple) (k : Nat) :
    JoinPlan.Stage anchor rest (afterPasses anchor rest k).1 (afterPasses anchor rest k).2 := by
  induction k with
  | zero => exact JoinPlan.stage_start anchor rest
  | succ k ih =>
    rw [afterPasses, Function.iterate_succ_apply']
    exact JoinPlan.stage_next ih

-- The outcome is the one verdict on the triples, and the rounds never stall on triples that
-- passed the check of connectivity.
theorem resolve_classified (triples : List Triple) :
    (∀ verdict, (resolve triples).map (fun _ => ()) = verdict ↔ Verdict triples verdict) ∧
      ∀ anchor rest, triples = anchor :: rest → checkConnected triples = .ok () →
        ∀ k, (afterPasses anchor rest k).2 ≠ [] →
          (afterPasses anchor rest (k + 1)).2.length < (afterPasses anchor rest k).2.length := by
  constructor
  · intro verdict
    constructor
    · rintro rfl
      exact resolve_verdict triples
    · exact verdict_resolved
  · rintro anchor rest rfl checked k inhabited
    have progress := JoinPlan.stage_progress (after_passes_stage anchor rest k)
      (Pattern.check_connected_ok.mp checked) inhabited
    rwa [afterPasses, Function.iterate_succ_apply']

-- The first of these has to wait for the second.
def late : List Triple := [
  ⟨.variable ['c'], .constant ['q'], .variable ['d']⟩,
  ⟨.variable ['b'], .constant ['r'], .variable ['c']⟩]

def early : Triple := ⟨.variable ['a'], .constant ['p'], .variable ['b']⟩

theorem late_triple_planned :
    checkConnected (early :: late) = .ok () ∧ (afterPasses early late 1).2 ≠ [] ∧
      Verdict (early :: late) (.ok ()) ∧
      (afterPasses early late 2).2.length < (afterPasses early late 1).2.length := by
  have classified := resolve_classified (early :: late)
  have waits : (afterPasses early late 1).2 ≠ [] := by decide
  exact ⟨rfl, waits, (classified.1 _).mp rfl, classified.2 _ _ rfl rfl 1 waits⟩

end TripleTable.Plan
