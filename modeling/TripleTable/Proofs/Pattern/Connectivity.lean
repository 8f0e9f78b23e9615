import Mathlib.Logic.Relation
import Mathlib.Order.Bounds.Basic
import TripleTable.Pattern.Connectivity
import TripleTable.Proofs.Pattern.DisjointSet
set_option autoImplicit false

/-!
What the check of connectivity decides: whether every triple can be reached from the first through
triples that share a variable.
-/
namespace TripleTable.Pattern

def Occurs (triples : List Triple) (index : Nat) (name : Text) : Prop :=
  ∃ t, triples[index]? = some t ∧ name ∈ t.variableNames

def Adjacent (triples : List Triple) (i j : Nat) : Prop :=
  ∃ name, Occurs triples i name ∧ Occurs triples j name

def Reachable (triples : List Triple) : Nat → Nat → Prop := Relation.ReflTransGen (Adjacent triples)

def unreachable (triples : List Triple) : Set Nat :=
  {i | i < triples.length ∧ ¬ Reachable triples 0 i}

variable {triples : List Triple}

theorem adjacent_symm {i j : Nat} (adjacent : Adjacent triples i j) : Adjacent triples j i := by
  obtain ⟨name, here, there⟩ := adjacent
  exact ⟨name, there, here⟩

theorem reachable_symm {i j : Nat} (reachable : Reachable triples i j) : Reachable triples j i := by
  induction reachable with
  | refl => exact .refl
  | tail _ edge ih => exact .head (adjacent_symm edge) ih

-- The classes hold nothing but reachability, and every occurrence met so far is in the class of
-- the first one.
structure Linked (triples : List Triple) (l : Linking) (met : Nat → Text → Prop) : Prop where
  ranked : l.classes.Ranked
  size : l.classes.size = triples.length
  sound : ∀ i j, l.classes.Together i j → Reachable triples i j
  seen : ∀ name first, l.firstSeen.lookup name = some first → Occurs triples first name
  known : ∀ i name, met i name →
    ∃ first, l.firstSeen.lookup name = some first ∧ l.classes.Together i first

theorem occurs_inside {index : Nat} {name : Text} (occurs : Occurs triples index name) :
    index < triples.length := by
  obtain ⟨t, found, -⟩ := occurs
  exact (List.getElem?_eq_some_iff.mp found).1

theorem meet_linked {l : Linking} {met : Nat → Text → Prop} {index : Nat} {name : Text}
    (linked : Linked triples l met) (occurs : Occurs triples index name) :
    Linked triples (l.meet index name) fun i v => met i v ∨ i = index ∧ v = name := by
  unfold Linking.meet
  cases found : l.firstSeen.lookup name with
  | some other =>
    have first_occurs := linked.seen name other found
    have reachable : Reachable triples other index := .single ⟨name, first_occurs, occurs⟩
    have joined := DisjointSet.union_joined linked.ranked
      (linked.size ▸ occurs_inside first_occurs) (linked.size ▸ occurs_inside occurs)
    refine ⟨joined.ranked, joined.size.trans linked.size, ?_, linked.seen, ?_⟩
    · intro i j together
      rcases (joined.together i j).mp together with old | ⟨here, there⟩ | ⟨here, there⟩
      · exact linked.sound i j old
      · exact (linked.sound i other here).trans
          (reachable.trans (reachable_symm (linked.sound j index there)))
      · exact (linked.sound i index here).trans
          ((reachable_symm reachable).trans (reachable_symm (linked.sound j other there)))
    · rintro i v (old | ⟨rfl, rfl⟩)
      · obtain ⟨first, same, together⟩ := linked.known i v old
        exact ⟨first, same, (joined.together i first).mpr (.inl together)⟩
      · refine ⟨other, found, (joined.together i other).mpr (.inr (.inr ⟨?_, ?_⟩))⟩
        · exact (DisjointSet.together_iff linked.ranked).mpr rfl
        · exact (DisjointSet.together_iff linked.ranked).mpr rfl
  | none =>
    have other_name : ∀ {v first}, l.firstSeen.lookup v = some first → v ≠ name := by
      rintro v first same rfl
      rw [found] at same
      cases same
    have kept : ∀ {v first}, l.firstSeen.lookup v = some first →
        ((name, index) :: l.firstSeen).lookup v = some first := by
      intro v first same
      have different := beq_eq_false_iff_ne.mpr (other_name same)
      rw [List.lookup_cons, different]
      exact same
    refine ⟨linked.ranked, linked.size, linked.sound, ?_, ?_⟩
    · intro v first same
      by_cases new : v = name
      · subst new
        rw [List.lookup_cons_self] at same
        cases same
        exact occurs
      · rw [List.lookup_cons, beq_eq_false_iff_ne.mpr new] at same
        exact linked.seen v first same
    · rintro i v (old | ⟨rfl, rfl⟩)
      · obtain ⟨first, same, together⟩ := linked.known i v old
        exact ⟨first, kept same, together⟩
      · exact ⟨i, List.lookup_cons_self, (DisjointSet.together_iff linked.ranked).mpr rfl⟩

theorem linked_fewer {l : Linking} {met fewer : Nat → Text → Prop}
    (linked : Linked triples l met) (among : ∀ i v, fewer i v → met i v) :
    Linked triples l fewer :=
  ⟨linked.ranked, linked.size, linked.sound, linked.seen, fun i v member =>
    linked.known i v (among i v member)⟩

theorem meet_names_linked {names : List Text} {l : Linking} {met : Nat → Text → Prop}
    {index : Nat} (linked : Linked triples l met)
    (occur : ∀ name ∈ names, Occurs triples index name) :
    Linked triples (names.foldl (fun l v => l.meet index v) l)
      fun i v => met i v ∨ i = index ∧ v ∈ names := by
  induction names generalizing l met with
  | nil => simpa using linked
  | cons name rest ih =>
    obtain ⟨here, later⟩ := List.forall_mem_cons.mp occur
    have next := ih (meet_linked linked here) later
    simpa only [List.foldl_cons, List.mem_cons, or_assoc, and_or_left] using next

theorem meet_all_linked {pairs : List (Triple × Nat)} {l : Linking} {met : Nat → Text → Prop}
    (linked : Linked triples l met) (listed : ∀ t i, (t, i) ∈ pairs → triples[i]? = some t) :
    Linked triples (l.meetAll pairs)
      fun i v => met i v ∨ ∃ t, (t, i) ∈ pairs ∧ v ∈ t.variableNames := by
  induction pairs generalizing l met with
  | nil => simpa [Linking.meetAll] using linked
  | cons pair rest ih =>
    obtain ⟨t, index⟩ := pair
    have occur : ∀ name ∈ t.variableNames, Occurs triples index name := fun name member =>
      ⟨t, listed t index List.mem_cons_self, member⟩
    have next := ih (meet_names_linked linked occur) fun t i member =>
      listed t i (List.mem_cons_of_mem _ member)
    refine linked_fewer next ?_
    rintro i v (old | ⟨u, member, named⟩)
    · exact .inl (.inl old)
    · rcases List.mem_cons.mp member with same | later
      · obtain ⟨rfl, rfl⟩ := Prod.mk.inj same
        exact .inl (.inr ⟨rfl, named⟩)
      · exact .inr ⟨u, later, named⟩

def linked (triples : List Triple) : Linking :=
  Linking.meetAll { classes := .ofSize triples.length } triples.zipIdx

theorem all_linked (triples : List Triple) :
    Linked triples (linked triples) (Occurs triples) := by
  have start : Linked triples { classes := .ofSize triples.length } fun _ _ => False := by
    refine ⟨DisjointSet.of_size_ranked _, by simp [DisjointSet.ofSize, DisjointSet.size], ?_, ?_, ?_⟩
    · intro i j together
      rw [(DisjointSet.of_size_together _ i j).mp together]
      exact .refl
    · intro name first found
      cases found
    · intro i name none
      exact none.elim
  have all := meet_all_linked start fun t i member =>
    List.mem_zipIdx_iff_getElem?.mp member
  refine linked_fewer all ?_
  rintro i v ⟨t, found, named⟩
  exact .inr ⟨t, List.mem_zipIdx_iff_getElem?.mpr found, named⟩

theorem linked_reachable (i j : Nat) :
    (linked triples).classes.Together i j ↔ Reachable triples i j := by
  have all := all_linked triples
  constructor
  · exact all.sound i j
  · intro reachable
    rw [DisjointSet.together_iff all.ranked]
    induction reachable with
    | refl => rfl
    | @tail j k _ edge ih =>
      obtain ⟨name, here, there⟩ := edge
      obtain ⟨first, found, together_j⟩ := all.known j name here
      obtain ⟨again, found_again, together_k⟩ := all.known k name there
      obtain rfl := Option.some.inj (found.symm.trans found_again)
      rw [DisjointSet.together_iff all.ranked] at together_j together_k
      exact ih.trans (together_j.trans together_k.symm)

theorem first_apart_find {s : DisjointSet} (ranked : s.Ranked) (indices : List Nat) :
    firstApart? s indices = indices.find? fun i => s.root 0 != s.root i := by
  induction indices generalizing s with
  | nil => rfl
  | cons index rest ih =>
    obtain ⟨decides, alike⟩ := DisjointSet.same_alike ranked 0 index
    rw [DisjointSet.together_iff ranked] at decides
    unfold firstApart?
    by_cases together : s.root 0 = s.root index
    · have same_root : ∀ x, (s.same 0 index).2.root x = s.root x := fun x =>
        (DisjointSet.leads_iff alike.ranked).mp
          (alike.leads.mpr (DisjointSet.root_leads ranked x))
      simp only [decides.mpr together, if_true, ih alike.ranked, same_root]
      rw [List.find?_cons_of_neg (by simp [together])]
    · have apart : (s.same 0 index).1 = false := by
        simpa using mt decides.mp together
      simp only [apart, Bool.false_eq_true, if_false]
      rw [List.find?_cons_of_pos (by simp [together])]

theorem unreachable_apart (i : Nat) :
    i ∈ unreachable triples ↔ (1 ≤ i ∧ i < triples.length) ∧
      (linked triples).classes.root 0 ≠ (linked triples).classes.root i := by
  rw [Ne, ← DisjointSet.together_iff (all_linked triples).ranked, linked_reachable]
  constructor
  · rintro ⟨inside, apart⟩
    refine ⟨⟨Nat.one_le_iff_ne_zero.mpr ?_, inside⟩, apart⟩
    rintro rfl
    exact apart .refl
  · rintro ⟨⟨-, inside⟩, apart⟩
    exact ⟨inside, apart⟩

theorem check_connected_find (triples : List Triple) :
    checkConnected triples =
      match (List.range' 1 (triples.length - 1)).find? fun i =>
          (linked triples).classes.root 0 != (linked triples).classes.root i with
      | some index => .error (.disconnected index)
      | none => .ok () := by
  rw [← first_apart_find (all_linked triples).ranked]
  rfl

theorem check_connected_defect {defect : Defect} (failed : checkConnected triples = .error defect) :
    ∃ i, defect = .disconnected i := by
  rw [check_connected_find] at failed
  split at failed
  · cases failed
    exact ⟨_, rfl⟩
  · cases failed

theorem check_connected_ok : checkConnected triples = .ok () ↔ unreachable triples = ∅ := by
  rw [check_connected_find]
  constructor
  · intro passed
    split at passed
    · cases passed
    · rename_i none
      refine Set.eq_empty_of_forall_notMem fun i member => ?_
      obtain ⟨inside, apart⟩ := (unreachable_apart i).mp member
      have together := List.find?_eq_none.mp none i (List.mem_range'_1.mpr (by omega))
      simp [apart] at together
  · intro empty
    have none : (List.range' 1 (triples.length - 1)).find? (fun i =>
        (linked triples).classes.root 0 != (linked triples).classes.root i) = none := by
      refine List.find?_eq_none.mpr fun i member apart => ?_
      have inside := List.mem_range'_1.mp member
      have outside : i ∉ unreachable triples := empty ▸ Set.notMem_empty i
      refine outside ((unreachable_apart i).mpr ⟨by omega, by simpa using apart⟩)
    rw [none]

theorem check_connected_error (index : Nat) :
    checkConnected triples = .error (.disconnected index) ↔
      IsLeast (unreachable triples) index := by
  have found : checkConnected triples = .error (.disconnected index) ↔
      (List.range' 1 (triples.length - 1)).find? (fun i =>
        (linked triples).classes.root 0 != (linked triples).classes.root i) = some index := by
    rw [check_connected_find]
    split
    · rename_i first here
      rw [here]
      simp
    · rename_i none
      rw [none]
      simp
  rw [found, List.find?_range'_eq_some]
  constructor
  · rintro ⟨apart, member, least⟩
    have inside := List.mem_range'_1.mp member
    refine ⟨(unreachable_apart index).mpr ⟨by omega, by simpa using apart⟩, fun i other => ?_⟩
    obtain ⟨positive, other_apart⟩ := (unreachable_apart i).mp other
    by_contra before
    have together := least i positive.1 (Nat.not_le.mp before)
    simp [other_apart] at together
  · rintro ⟨member, least⟩
    obtain ⟨inside, apart⟩ := (unreachable_apart index).mp member
    refine ⟨by simpa using apart, List.mem_range'_1.mpr (by omega), fun i positive before => ?_⟩
    by_contra other_apart
    have other : i ∈ unreachable triples :=
      (unreachable_apart i).mpr ⟨by omega, by simpa using other_apart⟩
    exact absurd (least other) (Nat.not_le.mpr before)

theorem check_connected_alike {others : List Triple}
    (same : unreachable others = unreachable triples) :
    checkConnected others = checkConnected triples := by
  cases checked : checkConnected triples with
  | ok _ => exact check_connected_ok.mpr (same.trans (check_connected_ok.mp checked))
  | error defect =>
    obtain ⟨index, rfl⟩ := check_connected_defect checked
    apply (check_connected_error index).mpr
    rw [same]
    exact (check_connected_error index).mp checked

/-! ### Predicates -/

def withPredicates (triples : List Triple) (predicates : Nat → Term) : List Triple :=
  triples.mapIdx fun i t => { t with predicate := predicates i }

section
variable (triples) (predicates : Nat → Term)

theorem occurs_predicates (index : Nat) (name : Text) :
    Occurs (withPredicates triples predicates) index name ↔ Occurs triples index name := by
  unfold Occurs
  rw [withPredicates, List.getElem?_mapIdx]
  cases triples[index]? with
  | none => simp
  | some t => simp [Triple.variableNames]

theorem adjacent_predicates : Adjacent (withPredicates triples predicates) = Adjacent triples := by
  funext i j
  simp only [Adjacent, occurs_predicates]

theorem unreachable_predicates :
    unreachable (withPredicates triples predicates) = unreachable triples := by
  have length : (withPredicates triples predicates).length = triples.length := List.length_mapIdx
  simp only [unreachable, Reachable, adjacent_predicates, length]

end

theorem nothing_unreachable :
    unreachable triples = ∅ ↔ ∀ i < triples.length, Reachable triples 0 i := by
  rw [Set.eq_empty_iff_forall_notMem]
  exact forall_congr' fun i => by rw [unreachable, Set.mem_ofPred_eq, not_and, Classical.not_not]

-- A variable is linked to its first occurrence only; the rest of adjacency is what the classes of
-- the forest add to that.
theorem connectivity_decided (triples : List Triple) :
    (checkConnected triples = .ok () ↔ ∀ i < triples.length, Reachable triples 0 i) ∧
    (∀ defect, checkConnected triples = .error defect ↔
      ∃ i, defect = .disconnected i ∧ IsLeast (unreachable triples) i) ∧
    ∀ predicates, checkConnected (withPredicates triples predicates) = checkConnected triples := by
  refine ⟨check_connected_ok.trans nothing_unreachable, fun defect => ⟨?_, ?_⟩, fun predicates => ?_⟩
  · intro failed
    obtain ⟨i, rfl⟩ := check_connected_defect failed
    exact ⟨i, rfl, (check_connected_error i).mp failed⟩
  · intro least
    obtain ⟨i, rfl, first⟩ := least
    exact (check_connected_error i).mpr first
  · exact check_connected_alike (unreachable_predicates triples predicates)

-- The third triple joins the first two; the last shares no more than its predicate.
def sharedPredicate : List Triple := [
  ⟨.variable "a", .variable "p", .variable "b"⟩,
  ⟨.variable "c", .constant "q", .variable "c"⟩,
  ⟨.variable "b", .constant "r", .variable "c"⟩,
  ⟨.constant "C", .variable "p", .constant "D"⟩]

theorem shared_predicate_apart :
    (∀ i < 3, Reachable (sharedPredicate.take 3) 0 i) ∧ IsLeast (unreachable sharedPredicate) 3 := by
  constructor
  · exact (connectivity_decided (sharedPredicate.take 3)).1.mp rfl
  · obtain ⟨i, same, least⟩ := ((connectivity_decided sharedPredicate).2.1 (.disconnected 3)).mp rfl
    obtain rfl := Defect.disconnected.inj same
    exact least

end TripleTable.Pattern
