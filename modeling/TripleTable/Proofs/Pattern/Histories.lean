import Mathlib.Logic.Relation
import TripleTable.Proofs.Pattern.DisjointSet
set_option autoImplicit false

/-!
What a disjoint set answers after a history of calls. Its classes are those of the equivalence that
the unions so far generate, and no look-up is seen in a later answer.
-/
namespace TripleTable.Pattern.DisjointSet

inductive Call where
  | union (x y : Nat)
  | find (x : Nat)
  | same (x y : Nat)
deriving DecidableEq, Repr

inductive Answer where
  | merged (new : Bool)
  | representative (root : Nat)
  | together (holds : Bool)
deriving DecidableEq, Repr

def Call.Within (n : Nat) : Call → Prop
  | union x y => x < n ∧ y < n
  | find x => x < n
  | same x y => x < n ∧ y < n

-- A call that only asks. It may shorten paths, but is to change nothing that can be seen.
def Call.Asks : Call → Prop
  | union _ _ => False
  | find _ => True
  | same _ _ => True

def call (s : DisjointSet) : Call → Answer × DisjointSet
  | .union x y => (.merged (s.union x y).1, (s.union x y).2)
  | .find x => (.representative (s.find x).1, (s.find x).2)
  | .same x y => (.together (s.same x y).1, (s.same x y).2)

def after (s : DisjointSet) (calls : List Call) : DisjointSet :=
  calls.foldl (fun s c => (s.call c).2) s

def answers (s : DisjointSet) : List Call → List Answer
  | [] => []
  | c :: rest => (s.call c).1 :: (s.call c).2.answers rest

-- The equivalence that the pairs passed to unions generate.
def Related (calls : List Call) : Nat → Nat → Prop :=
  Relation.EqvGen fun x y => .union x y ∈ calls

variable {s t : DisjointSet} {n : Nat} {calls : List Call}

/-! ### The second loop of a look-up -/

-- A run of the loop that links what stands between `x` and `r` directly to `r`, with no bound on
-- its rounds. The run of the first loop is `Leads`.
inductive Shortened (r : Nat) : Nat → DisjointSet → DisjointSet → Prop
  | direct {x : Nat} {s : DisjointSet} : s.parentOf x = r → Shortened r x s s
  | round {x : Nat} {s t : DisjointSet} : s.parentOf x ≠ r →
      Shortened r (s.parentOf x) (s.relink x r) t → Shortened r x s t

theorem relink_above (x target y : Nat) : (s.relink x target).above y = s.above y := by
  unfold above
  rw [relink_size]
  rfl

theorem compress_shortened {r x m : Nat} (ranked : s.Ranked) (leads : s.Leads x r)
    (enough : (s.above x).card < m) : Shortened r x s (compress r m x s) := by
  induction m generalizing x s with
  | zero => exact absurd enough (Nat.not_lt_zero _)
  | succ m ih =>
    rw [compress]
    by_cases direct : s.parentOf x = r
    · rw [if_pos direct]
      exact .direct direct
    · rw [if_neg direct]
      have moves : s.parentOf x ≠ x := by
        intro fixed
        exact direct (fixed.trans (leads_unique (.root fixed) leads))
      have apart : x ≠ r := by
        rintro rfl
        exact direct (leads_root leads)
      have shortcut := shortcut_alike ranked leads apart
      have fewer := above_parent ranked moves
      refine .round direct (ih shortcut.ranked (shortcut.leads.mpr (leads_parent leads)) ?_)
      rw [relink_above]
      omega

theorem find_shortened (ranked : s.Ranked) {x : Nat} (inside : x < s.size) :
    Shortened (s.find x).1 x s (s.find x).2 :=
  compress_shortened ranked (root_leads ranked x) (above_size inside)

/-! ### What a call shows of a state -/

theorem compress_rank (r m x : Nat) : (compress r m x s).rank = s.rank := by
  induction m generalizing x s with
  | zero => rfl
  | succ m ih =>
    rw [compress]
    by_cases direct : s.parentOf x = r
    · rw [if_pos direct]
    · rw [if_neg direct, ih]

theorem searched_rank (x y : Nat) : (s.searched x y).rank = s.rank :=
  (compress_rank _ _ _).trans (compress_rank _ _ _)

theorem alike_root (ranked : s.Ranked) (alike : s.Alike t) (x : Nat) : t.root x = s.root x :=
  (leads_iff alike.ranked).mp (alike.leads.mpr (root_leads ranked x))

theorem hung_root (ranked : s.Ranked) {low high : Nat} (hung : s.Hung t low high) (x : Nat) :
    t.root x = if s.root x = low then high else s.root x :=
  (leads_iff hung.ranked).mp (hung.leads (root_leads ranked x))

-- Two states that differ at most in how long their paths are.
structure Twin (s t : DisjointSet) : Prop where
  first : s.Ranked
  second : t.Ranked
  size : t.size = s.size
  rank : t.rank = s.rank
  root : ∀ x, t.root x = s.root x

theorem searched_twin (ranked : s.Ranked) (x y : Nat) : s.Twin (s.searched x y) := by
  have alike := searched_alike ranked x y
  exact ⟨ranked, alike.ranked, alike.size, searched_rank x y, alike_root ranked alike⟩

theorem find_twin (ranked : s.Ranked) (x : Nat) : s.Twin (s.find x).2 := by
  obtain ⟨-, alike⟩ := find_alike ranked x
  exact ⟨ranked, alike.ranked, alike.size, compress_rank _ _ _, alike_root ranked alike⟩

theorem twin_symm (twin : s.Twin t) : t.Twin s :=
  ⟨twin.second, twin.first, twin.size.symm, twin.rank.symm, fun x => (twin.root x).symm⟩

theorem twin_trans {u : DisjointSet} (here : s.Twin t) (there : t.Twin u) : s.Twin u :=
  ⟨here.first, there.second, there.size.trans here.size, there.rank.trans here.rank,
    fun x => (there.root x).trans (here.root x)⟩

theorem asking_twin (ranked : s.Ranked) {c : Call} (asks : c.Asks) : s.Twin (s.call c).2 := by
  cases c with
  | union x y => exact asks.elim
  | find x => exact find_twin ranked x
  | same x y =>
    change s.Twin (s.same x y).2
    rw [same_roots ranked]
    exact searched_twin ranked x y

theorem asked_twin (twin : s.Twin t) {c : Call} (asks : c.Asks) :
    (s.call c).2.Twin (t.call c).2 :=
  twin_trans (twin_symm (asking_twin twin.first asks))
    (twin_trans twin (asking_twin twin.second asks))

theorem rank_of_twin (same : t.rank = s.rank) (x : Nat) : t.rankOf x = s.rankOf x := by
  unfold rankOf
  rw [same]

theorem link_rank (same : t.rank = s.rank) (a b : Nat) :
    (t.link a b).rank = (s.link a b).rank := by
  unfold link
  simp only [rank_of_twin same]
  by_cases less : s.rankOf a < s.rankOf b
  · rw [if_pos less, if_pos less]
    exact same
  · rw [if_neg less, if_neg less]
    by_cases higher : s.rankOf b < s.rankOf a
    · rw [if_pos higher, if_pos higher]
      exact same
    · rw [if_neg higher, if_neg higher]
      change t.rank.setIfInBounds a (t.rankOf a + 1) = s.rank.setIfInBounds a (s.rankOf a + 1)
      rw [same, rank_of_twin same]

theorem union_twin (twin : s.Twin t) {x y : Nat} (x_inside : x < s.size) (y_inside : y < s.size) :
    (t.union x y).1 = (s.union x y).1 ∧ (s.union x y).2.Twin (t.union x y).2 := by
  have here := searched_twin twin.first x y
  have there := searched_twin twin.second x y
  have both := twin_trans (twin_symm here) (twin_trans twin there)
  by_cases same : s.root x = s.root y
  · have same' : t.root x = t.root y := by rwa [twin.root, twin.root]
    rw [union_same twin.first same, union_same twin.second same']
    exact ⟨rfl, both⟩
  · have apart : t.root x ≠ t.root y := by rwa [twin.root, twin.root]
    have hung := searched_link_hung twin.first x_inside y_inside same
    have hung' := searched_link_hung twin.second (twin.size ▸ x_inside) (twin.size ▸ y_inside) apart
    rw [union_apart twin.first same, union_apart twin.second apart]
    rw [twin.root, twin.root] at hung' ⊢
    refine ⟨rfl, hung.ranked, hung'.ranked, ?_, link_rank both.rank _ _, fun z => ?_⟩
    · rw [hung'.size, hung.size, twin.size]
    · rw [hung_root twin.first hung, hung_root twin.second hung', twin.root]
      unfold lower upper
      simp only [rank_of_twin both.rank]

theorem call_twin (twin : s.Twin t) {c : Call} (within : c.Within s.size) :
    (t.call c).1 = (s.call c).1 ∧ (s.call c).2.Twin (t.call c).2 := by
  cases c with
  | union x y =>
    obtain ⟨same, next⟩ := union_twin twin within.1 within.2
    exact ⟨congrArg Answer.merged same, next⟩
  | find x => exact ⟨congrArg Answer.representative (twin.root x), asked_twin twin trivial⟩
  | same x y =>
    have answer : (t.same x y).1 = (s.same x y).1 := by
      rw [same_roots twin.first, same_roots twin.second, twin.root, twin.root]
    exact ⟨congrArg Answer.together answer, asked_twin twin trivial⟩

theorem call_size (ranked : s.Ranked) {c : Call} (within : c.Within s.size) :
    (s.call c).2.size = s.size := by
  cases c with
  | union x y => exact (union_joined ranked within.1 within.2).size
  | find x => exact (asking_twin ranked (c := .find x) trivial).size
  | same x y => exact (asking_twin ranked (c := .same x y) trivial).size

-- By induction on the calls to come: each answers alike and leaves twins.
theorem answers_twin {later : List Call} (twin : s.Twin t) (within : ∀ c ∈ later, c.Within s.size) :
    t.answers later = s.answers later := by
  induction later generalizing s t with
  | nil => rfl
  | cons c rest ih =>
    obtain ⟨here, there⟩ := List.forall_mem_cons.mp within
    obtain ⟨same, next⟩ := call_twin twin here
    have rest_within : ∀ d ∈ rest, d.Within (s.call c).2.size := by
      rw [call_size twin.first here]
      exact there
    rw [answers, answers, same, ih next rest_within]

/-! ### Histories -/

def state (n : Nat) (calls : List Call) : DisjointSet := (ofSize n).after calls

theorem state_next (c : Call) : state n (calls ++ [c]) = ((state n calls).call c).2 := by
  simp [state, after]

theorem answers_next (s : DisjointSet) (calls : List Call) (c : Call) :
    s.answers (calls ++ [c]) = s.answers calls ++ [((s.after calls).call c).1] := by
  induction calls generalizing s with
  | nil => rfl
  | cons first rest ih =>
    rw [List.cons_append, answers, ih]
    rfl

def roots (s : DisjointSet) : Finset Nat := (Finset.range s.size).image s.root

theorem root_among {x : Nat} (inside : x < s.size) : s.root x ∈ s.roots :=
  Finset.mem_image_of_mem _ (Finset.mem_range.mpr inside)

theorem twin_roots (twin : s.Twin t) : t.roots = s.roots := by
  unfold roots
  rw [twin.size, funext twin.root]

theorem hung_roots {low high : Nat} (ranked : s.Ranked) (hung : s.Hung t low high)
    (high_root : high ∈ s.roots) (apart : high ≠ low) : t.roots = s.roots.erase low := by
  ext r
  rw [Finset.mem_erase, roots, hung.size, roots, Finset.mem_image, Finset.mem_image]
  simp only [hung_root ranked hung]
  constructor
  · rintro ⟨x, inside, rfl⟩
    by_cases moved : s.root x = low
    · rw [if_pos moved]
      exact ⟨apart, Finset.mem_image.mp high_root⟩
    · rw [if_neg moved]
      exact ⟨moved, x, inside, rfl⟩
  · rintro ⟨other, x, inside, rfl⟩
    exact ⟨x, inside, if_neg other⟩

theorem union_roots (ranked : s.Ranked) {x y : Nat} (x_inside : x < s.size) (y_inside : y < s.size)
    (apart : s.root x ≠ s.root y) : (s.union x y).2.roots.card + 1 = s.roots.card := by
  have hung := searched_link_hung ranked x_inside y_inside apart
  have x_root := root_among x_inside
  have y_root := root_among y_inside
  rw [union_apart ranked apart]
  rcases lower_upper (s.searched x y) (s.root x) (s.root y) with ⟨low, high⟩ | ⟨low, high⟩
  · rw [low, high] at hung
    rw [hung_roots ranked hung y_root (Ne.symm apart), Finset.card_erase_add_one x_root]
  · rw [low, high] at hung
    rw [hung_roots ranked hung x_root apart, Finset.card_erase_add_one y_root]

theorem related_asking {c : Call} (asks : c.Asks) : Related (calls ++ [c]) = Related calls := by
  have same : ∀ x y, Call.union x y ∈ calls ++ [c] ↔ Call.union x y ∈ calls := by
    intro x y
    cases c with
    | union _ _ => exact asks.elim
    | _ => simp
  unfold Related
  simp only [same]

theorem related_earlier {c : Call} {x y : Nat} (related : Related calls x y) :
    Related (calls ++ [c]) x y :=
  Relation.EqvGen.mono (fun _ _ member => List.mem_append_left _ member) _ _ related

-- What holds of a state that a history leads to.
structure Reached (n : Nat) (calls : List Call) : Prop where
  ranked : (state n calls).Ranked
  size : (state n calls).size = n
  related : ∀ x y, (state n calls).Together x y ↔ Related calls x y
  merges : ((ofSize n).answers calls).count (.merged true) + (state n calls).roots.card = n

theorem start_reached (n : Nat) : Reached n [] := by
  have size : (ofSize n).size = n := by simp [ofSize, DisjointSet.size]
  have ranked := of_size_ranked n
  refine ⟨ranked, size, fun x y => ?_, ?_⟩
  · change (ofSize n).Together x y ↔ _
    rw [of_size_together]
    constructor
    · rintro rfl
      exact .refl x
    · intro related
      induction related with
      | rel x y member => cases member
      | refl x => rfl
      | symm x y _ ih => exact ih.symm
      | trans x y z _ _ first second => exact first.trans second
  · have same : (ofSize n).root = id := by
      funext x
      exact (leads_iff ranked).mp (.root (of_size_parent n x))
    change 0 + (ofSize n).roots.card = n
    rw [roots, size, same, Finset.image_id, Finset.card_range, Nat.zero_add]

theorem reached_asking {c : Call} (reached : Reached n calls) (asks : c.Asks) :
    Reached n (calls ++ [c]) := by
  have twin := asking_twin reached.ranked asks
  have unmerged : ((state n calls).call c).1 ≠ .merged true := by
    cases c with
    | union x y => exact asks.elim
    | _ => simp [call]
  refine ⟨?_, ?_, fun x y => ?_, ?_⟩
  · rw [state_next]
    exact twin.second
  · rw [state_next, twin.size, reached.size]
  · rw [state_next, related_asking asks, ← reached.related, together_iff twin.second,
      together_iff twin.first, twin.root, twin.root]
  · rw [state_next, twin_roots twin, answers_next, List.count_append,
      List.count_singleton, ← state, beq_false_of_ne unmerged]
    exact reached.merges

theorem reached_union {x y : Nat} (reached : Reached n calls) (x_inside : x < n)
    (y_inside : y < n) : Reached n (calls ++ [.union x y]) := by
  have x_within : x < (state n calls).size := reached.size.symm ▸ x_inside
  have y_within : y < (state n calls).size := reached.size.symm ▸ y_inside
  have joined := union_joined reached.ranked x_within y_within
  have next : state n (calls ++ [.union x y]) = ((state n calls).union x y).2 := state_next _
  refine ⟨next ▸ joined.ranked, next ▸ joined.size.trans reached.size, fun a b => ?_, ?_⟩
  · rw [next]
    have new : Related (calls ++ [.union x y]) x y :=
      .rel x y (List.mem_append_right _ List.mem_cons_self)
    constructor
    · intro together
      rcases (joined.together a b).mp together with old | ⟨here, there⟩ | ⟨here, there⟩
      · exact related_earlier ((reached.related a b).mp old)
      · have left := related_earlier (c := .union x y) ((reached.related a x).mp here)
        have right := related_earlier (c := .union x y) ((reached.related b y).mp there)
        exact .trans _ _ _ left (.trans _ _ _ new (.symm _ _ right))
      · have left := related_earlier (c := .union x y) ((reached.related a y).mp here)
        have right := related_earlier (c := .union x y) ((reached.related b x).mp there)
        exact .trans _ _ _ left (.trans _ _ _ (.symm _ _ new) (.symm _ _ right))
    · intro related
      rw [together_iff joined.ranked]
      induction related with
      | rel a b member =>
        rw [← together_iff joined.ranked, joined.together]
        rcases List.mem_append.mp member with old | added
        · exact .inl ((reached.related a b).mpr (.rel a b old))
        · obtain ⟨rfl, rfl⟩ := Call.union.inj (List.mem_singleton.mp added)
          have self : ∀ z, (state n calls).Together z z := fun z =>
            (together_iff reached.ranked).mpr rfl
          exact .inr (.inl ⟨self a, self b⟩)
      | refl a => rfl
      | symm a b _ ih => exact ih.symm
      | trans a b c _ _ first second => exact first.trans second
  · rw [next, answers_next, List.count_append, List.count_singleton, ← state]
    have before := reached.merges
    by_cases same : (state n calls).root x = (state n calls).root y
    · have twin := searched_twin reached.ranked x y
      simp only [call, union_same reached.ranked same, twin_roots twin]
      exact before
    · have fewer := union_roots reached.ranked x_within y_within same
      have merged : ((state n calls).union x y).1 = true := by rw [union_apart reached.ranked same]
      simp only [call, merged, beq_self_eq_true, if_true]
      omega

theorem history_reached (within : ∀ c ∈ calls, c.Within n) : Reached n calls := by
  induction calls using List.reverseRecOn with
  | nil => exact start_reached n
  | append_singleton calls c ih =>
    have earlier := ih fun d member => within d (List.mem_append_left _ member)
    have last := within c (List.mem_append_right _ List.mem_cons_self)
    cases c with
    | union x y => exact reached_union earlier last.1 last.2
    | find x => exact reached_asking earlier trivial
    | same x y => exact reached_asking earlier trivial

-- Questions are answered by the equivalence of the unions so far. Both loops of a look-up come to
-- their end by themselves, at a representative of the class, and every union that joined two
-- classes has one representative fewer.
theorem history_answered (n : Nat) (calls : List Call) (within : ∀ c ∈ calls, c.Within n) :
    (∀ x y, x < n → y < n →
      (((state n calls).same x y).1 = true ↔ Related calls x y) ∧
      (((state n calls).union x y).1 = true ↔ ¬ Related calls x y) ∧
      (((state n calls).find x).1 = ((state n calls).find y).1 ↔ Related calls x y)) ∧
    (∀ x, x < n → ((state n calls).find x).1 < n ∧ Related calls x ((state n calls).find x).1 ∧
      (state n calls).Leads x ((state n calls).find x).1 ∧
      Shortened ((state n calls).find x).1 x (state n calls) ((state n calls).find x).2) ∧
    (∀ c, c.Asks → c.Within n → ∀ later, (∀ d ∈ later, d.Within n) →
      ((state n calls).call c).2.answers later = (state n calls).answers later) ∧
    ((ofSize n).answers calls).count (.merged true) +
      ((Finset.range n).image fun x => ((state n calls).find x).1).card = n := by
  have reached := history_reached within
  have ranked := reached.ranked
  have same_root : ∀ x y, (state n calls).root x = (state n calls).root y ↔ Related calls x y :=
    fun x y => (together_iff ranked).symm.trans (reached.related x y)
  refine ⟨fun x y x_inside y_inside => ⟨?_, ?_, same_root x y⟩, fun x inside => ?_, ?_, ?_⟩
  · rw [same_roots ranked, ← same_root]
    exact beq_iff_eq
  · rw [← same_root]
    by_cases same : (state n calls).root x = (state n calls).root y
    · simp [union_same ranked same, same]
    · simp [union_apart ranked same, same]
  · have leads := root_leads ranked x
    have x_inside : x < (state n calls).size := reached.size.symm ▸ inside
    have root_inside := leads_inside ranked leads x_inside
    rw [reached.size] at root_inside
    refine ⟨root_inside, (same_root x _).mp ?_, leads, find_shortened ranked x_inside⟩
    exact ((leads_iff ranked).mp (.root (leads_root leads))).symm
  · intro c asks _ later later_within
    refine answers_twin (asking_twin ranked asks) ?_
    rw [reached.size]
    exact later_within
  · have merges := reached.merges
    rw [roots, reached.size] at merges
    exact merges

-- Two pairs, a look-up between them, and the union that joins all four.
def fourJoined : List Call := [.union 0 1, .union 2 3, .union 1 0, .find 3, .union 1 3]

theorem four_joined_answered :
    (∀ c ∈ fourJoined, c.Within 4) ∧ ((state 4 fourJoined).same 0 2).1 = true ∧
      Related fourJoined 0 2 ∧ ((state 4 fourJoined).union 2 1).1 = false ∧
      ((ofSize 4).answers fourJoined).count (.merged true) = 3 := by
  have within : ∀ c ∈ fourJoined, c.Within 4 := by simp [fourJoined, Call.Within]
  obtain ⟨answered, -, -, merges⟩ := history_answered 4 fourJoined within
  have asked : ((state 4 fourJoined).same 0 2).1 = true := by decide
  have related : Related fourJoined 0 2 := (answered 0 2 (by decide) (by decide)).1.mp asked
  have refused : ¬ ((state 4 fourJoined).union 2 1).1 = true := by
    rw [(answered 2 1 (by decide) (by decide)).2.1, not_not]
    exact (answered 2 1 (by decide) (by decide)).1.mp (by decide)
  have one : ((Finset.range 4).image fun x => ((state 4 fourJoined).find x).1).card = 1 := by decide
  rw [one] at merges
  exact ⟨within, asked, related, Bool.eq_false_of_not_eq_true refused, Nat.succ.inj merges⟩

end TripleTable.Pattern.DisjointSet
