import Mathlib.Data.Finset.Card
import Mathlib.Data.Finset.Range
import TripleTable.Pattern.DisjointSet
set_option autoImplicit false

/-!
The classes of a disjoint set: two numbers are together when their parent links lead to the same
root. A look-up leaves all classes as they are, and a union joins those of its two numbers.
-/
namespace TripleTable.Pattern.DisjointSet

inductive Leads (s : DisjointSet) : Nat → Nat → Prop
  | root {x : Nat} : s.parentOf x = x → Leads s x x
  | step {x r : Nat} : s.parentOf x ≠ x → Leads s (s.parentOf x) r → Leads s x r

def Together (s : DisjointSet) (x y : Nat) : Prop := ∃ r, s.Leads x r ∧ s.Leads y r

-- Ranks rise along every link, so no path comes back to where it was.
structure Ranked (s : DisjointSet) : Prop where
  sizes : s.rank.size = s.size
  inside : ∀ x, x < s.size → s.parentOf x < s.size
  rising : ∀ x, s.parentOf x ≠ x → s.rankOf x < s.rankOf (s.parentOf x)

variable {s : DisjointSet}

theorem parent_outside {x : Nat} (outside : s.size ≤ x) : s.parentOf x = x := by
  have beyond : ¬ x < s.parent.size := Nat.not_lt.mpr outside
  simp [parentOf, Array.getD, beyond]

theorem moves_inside {x : Nat} (moves : s.parentOf x ≠ x) : x < s.size := by
  by_cases inside : x < s.size
  · exact inside
  · exact absurd (parent_outside (Nat.not_lt.mp inside)) moves

theorem leads_root {x r : Nat} (leads : s.Leads x r) : s.parentOf r = r := by
  induction leads with
  | root fixed => exact fixed
  | step _ _ ih => exact ih

theorem leads_unique {x r other : Nat} (leads : s.Leads x r) (again : s.Leads x other) :
    r = other := by
  induction leads with
  | root fixed =>
    cases again with
    | root _ => rfl
    | step moves _ => exact absurd fixed moves
  | step moves _ ih =>
    cases again with
    | root fixed => exact absurd fixed moves
    | step _ rest => exact ih rest

theorem leads_parent {x r : Nat} (leads : s.Leads x r) : s.Leads (s.parentOf x) r := by
  cases leads with
  | root fixed =>
    rw [fixed]
    exact .root fixed
  | step _ rest => exact rest

theorem leads_rank {x r : Nat} (ranked : s.Ranked) (leads : s.Leads x r) :
    x = r ∨ s.rankOf x < s.rankOf r := by
  induction leads with
  | root _ => exact .inl rfl
  | @step x r moves _ ih =>
    have higher := ranked.rising x moves
    rcases ih with same | above
    · exact .inr (same ▸ higher)
    · exact .inr (Nat.lt_trans higher above)

theorem leads_inside {x r : Nat} (ranked : s.Ranked) (leads : s.Leads x r)
    (inside : x < s.size) : r < s.size := by
  induction leads with
  | root _ => exact inside
  | @step x r _ _ ih => exact ih (ranked.inside x inside)

-- The numbers of higher rank. A step up leaves fewer of them, which bounds the path.
def above (s : DisjointSet) (x : Nat) : Finset Nat :=
  (Finset.range s.size).filter fun y => s.rankOf x < s.rankOf y

theorem above_parent {x : Nat} (ranked : s.Ranked) (moves : s.parentOf x ≠ x) :
    (s.above (s.parentOf x)).card < (s.above x).card := by
  have higher := ranked.rising x moves
  refine Finset.card_lt_card (Finset.ssubset_iff_of_subset ?_ |>.mpr ⟨s.parentOf x, ?_, ?_⟩)
  · intro y member
    obtain ⟨range, rank⟩ := Finset.mem_filter.mp member
    exact Finset.mem_filter.mpr ⟨range, Nat.lt_trans higher rank⟩
  · exact Finset.mem_filter.mpr
      ⟨Finset.mem_range.mpr (ranked.inside x (moves_inside moves)), higher⟩
  · intro member
    exact Nat.lt_irrefl _ (Finset.mem_filter.mp member).2

theorem above_size {x : Nat} (inside : x < s.size) : (s.above x).card < s.size := by
  rw [← Finset.card_range s.size]
  refine Finset.card_lt_card (Finset.ssubset_iff_of_subset (Finset.filter_subset _ _) |>.mpr ?_)
  refine ⟨x, Finset.mem_range.mpr inside, fun member => ?_⟩
  exact Nat.lt_irrefl _ (Finset.mem_filter.mp member).2

theorem climb_leads (ranked : s.Ranked) {n x : Nat} (enough : (s.above x).card < n) :
    s.Leads x (s.climb n x) := by
  induction n generalizing x with
  | zero => exact absurd enough (Nat.not_lt_zero _)
  | succ n ih =>
    rw [climb]
    by_cases fixed : s.parentOf x = x
    · rw [if_pos fixed]
      exact .root fixed
    · rw [if_neg fixed]
      have fewer := above_parent ranked fixed
      exact .step fixed (ih (by omega))

theorem root_leads (ranked : s.Ranked) (x : Nat) : s.Leads x (s.root x) := by
  by_cases inside : x < s.size
  · exact climb_leads ranked (above_size inside)
  · have fixed := parent_outside (Nat.not_lt.mp inside)
    have stays : s.root x = x := by
      unfold root
      cases s.size with
      | zero => rfl
      | succ n => rw [climb, if_pos fixed]
    rw [stays]
    exact .root fixed

theorem leads_iff (ranked : s.Ranked) {x r : Nat} : s.Leads x r ↔ s.root x = r := by
  constructor
  · intro leads
    exact leads_unique (root_leads ranked x) leads
  · rintro rfl
    exact root_leads ranked x

theorem together_iff (ranked : s.Ranked) {x y : Nat} : s.Together x y ↔ s.root x = s.root y := by
  constructor
  · rintro ⟨r, here, there⟩
    exact ((leads_iff ranked).mp here).trans ((leads_iff ranked).mp there).symm
  · intro same
    exact ⟨s.root y, (leads_iff ranked).mpr same, root_leads ranked y⟩

-- The links after one of them was set.
def relink (s : DisjointSet) (x target : Nat) : DisjointSet :=
  { s with parent := s.parent.setIfInBounds x target }

theorem relink_parent {x target : Nat} (inside : x < s.size) (y : Nat) :
    (s.relink x target).parentOf y = if y = x then target else s.parentOf y := by
  have bound : x < s.parent.size := inside
  by_cases same : y = x
  · subst same
    simp [relink, parentOf, bound]
  · simp [relink, parentOf, same, Ne.symm same]

theorem relink_size (x target : Nat) : (s.relink x target).size = s.size := by
  simp [relink, size]

theorem relink_ranked {x target : Nat} (ranked : s.Ranked) (inside : x < s.size)
    (target_inside : target < s.size) (higher : s.rankOf x < s.rankOf target) :
    (s.relink x target).Ranked where
  sizes := ranked.sizes.trans (relink_size x target).symm
  inside y y_inside := by
    rw [relink_size] at y_inside ⊢
    rw [relink_parent inside]
    by_cases same : y = x
    · rwa [if_pos same]
    · rw [if_neg same]
      exact ranked.inside y y_inside
  rising y moves := by
    rw [relink_parent inside] at moves ⊢
    by_cases same : y = x
    · rw [if_pos same, same]
      exact higher
    · rw [if_neg same] at moves ⊢
      exact ranked.rising y moves

theorem relink_root {x target y : Nat} (inside : x < s.size) (fixed : s.parentOf y = y)
    (other : y ≠ x) : (s.relink x target).Leads y y := by
  refine .root ?_
  rw [relink_parent inside, if_neg other, fixed]

theorem relink_step {x target r : Nat} (inside : x < s.size) (other : target ≠ x)
    (leads : (s.relink x target).Leads target r) : (s.relink x target).Leads x r := by
  have next : (s.relink x target).parentOf x = target := by rw [relink_parent inside, if_pos rfl]
  refine .step ?_ ?_
  · rwa [next]
  · rwa [next]

theorem relink_other {x target y r : Nat} (inside : x < s.size) (other : y ≠ x)
    (moves : s.parentOf y ≠ y) (leads : (s.relink x target).Leads (s.parentOf y) r) :
    (s.relink x target).Leads y r := by
  have next : (s.relink x target).parentOf y = s.parentOf y := by
    rw [relink_parent inside, if_neg other]
  refine .step ?_ ?_
  · rwa [next]
  · rwa [next]

-- A state that leads every number to the same root as before.
structure Alike (s later : DisjointSet) : Prop where
  ranked : later.Ranked
  size : later.size = s.size
  leads : ∀ {x r : Nat}, later.Leads x r ↔ s.Leads x r

theorem alike_refl (ranked : s.Ranked) : s.Alike s := ⟨ranked, rfl, Iff.rfl⟩

theorem alike_trans {next last : DisjointSet} (first : s.Alike next) (second : next.Alike last) :
    s.Alike last :=
  ⟨second.ranked, second.size.trans first.size, second.leads.trans first.leads⟩

theorem alike_together {later : DisjointSet} (alike : s.Alike later) {x y : Nat} :
    later.Together x y ↔ s.Together x y := by
  simp only [Together, alike.leads]

theorem shortcut_alike {x r : Nat} (ranked : s.Ranked) (leads : s.Leads x r) (apart : x ≠ r) :
    s.Alike (s.relink x r) := by
  have fixed := leads_root leads
  have moves : s.parentOf x ≠ x := fun root => apart (leads_unique (.root root) leads)
  have inside := moves_inside moves
  have higher := (leads_rank ranked leads).resolve_left apart
  have after := relink_ranked ranked inside (leads_inside ranked leads inside) higher
  have kept : ∀ {y z : Nat}, s.Leads y z → (s.relink x r).Leads y z := by
    intro y z path
    induction path with
    | @root y root => exact relink_root inside root fun same => moves (same ▸ root)
    | @step y z next rest ih =>
      by_cases same : y = x
      · subst same
        obtain rfl := leads_unique leads (.step next rest)
        exact relink_step inside (Ne.symm apart) (relink_root inside fixed (Ne.symm apart))
      · exact relink_other inside same next ih
  refine ⟨after, relink_size x r, ?_, kept⟩
  intro path
  rename_i y z
  have old := root_leads ranked y
  obtain rfl := leads_unique (kept old) path
  exact old

theorem compress_alike {r n x : Nat} (ranked : s.Ranked) (leads : s.Leads x r) :
    s.Alike (compress r n x s) := by
  induction n generalizing x s with
  | zero => exact alike_refl ranked
  | succ n ih =>
    rw [compress]
    by_cases direct : s.parentOf x = r
    · rw [if_pos direct]
      exact alike_refl ranked
    · rw [if_neg direct]
      have apart : x ≠ r := by
        rintro rfl
        exact direct (leads_root leads)
      have shortcut := shortcut_alike ranked leads apart
      exact alike_trans shortcut (ih shortcut.ranked (shortcut.leads.mpr (leads_parent leads)))

theorem find_alike (ranked : s.Ranked) (x : Nat) :
    s.Leads x (s.find x).1 ∧ s.Alike (s.find x).2 :=
  ⟨root_leads ranked x, compress_alike ranked (root_leads ranked x)⟩

-- The state after the look-ups of two numbers, which unions and questions begin with.
def searched (s : DisjointSet) (x y : Nat) : DisjointSet := ((s.find x).2.find y).2

theorem searched_alike (ranked : s.Ranked) (x y : Nat) : s.Alike (s.searched x y) := by
  obtain ⟨-, first⟩ := find_alike ranked x
  obtain ⟨-, second⟩ := find_alike first.ranked y
  exact alike_trans first second

theorem second_root (ranked : s.Ranked) (x y : Nat) : ((s.find x).2.find y).1 = s.root y := by
  obtain ⟨-, first⟩ := find_alike ranked x
  obtain ⟨reached, -⟩ := find_alike first.ranked y
  exact ((leads_iff ranked).mp (first.leads.mp reached)).symm

theorem same_roots (ranked : s.Ranked) (x y : Nat) :
    s.same x y = (s.root x == s.root y, s.searched x y) := by
  have second : ((s.find x).2.find y).1 = s.root y := second_root ranked x y
  rw [← second]
  rfl

theorem same_alike (ranked : s.Ranked) (x y : Nat) :
    ((s.same x y).1 = true ↔ s.Together x y) ∧ s.Alike (s.same x y).2 := by
  rw [same_roots ranked, together_iff ranked]
  exact ⟨beq_iff_eq, searched_alike ranked x y⟩

-- The rank of a root after it grew by one.
def raise (s : DisjointSet) (x : Nat) : DisjointSet :=
  { s with rank := s.rank.setIfInBounds x (s.rankOf x + 1) }

theorem raise_rank {x : Nat} (inside : x < s.rank.size) (y : Nat) :
    (s.raise x).rankOf y = if y = x then s.rankOf x + 1 else s.rankOf y := by
  by_cases same : y = x
  · subst same
    simp [raise, rankOf, inside]
  · simp [raise, rankOf, same, Ne.symm same]

theorem raise_ranked {x : Nat} (ranked : s.Ranked) (inside : x < s.size)
    (fixed : s.parentOf x = x) : (s.raise x).Ranked where
  sizes := by
    rw [← show s.rank.size = (s.raise x).size from ranked.sizes]
    simp [raise]
  inside := ranked.inside
  rising y moves := by
    have bound : x < s.rank.size := ranked.sizes ▸ inside
    have other : y ≠ x := by
      rintro rfl
      exact moves fixed
    have higher := ranked.rising y moves
    rw [raise_rank bound, if_neg other, raise_rank bound]
    change s.rankOf y < if s.parentOf y = x then _ else s.rankOf (s.parentOf y)
    by_cases top : s.parentOf y = x
    · rw [if_pos top]
      rw [top] at higher
      omega
    · rwa [if_neg top]

theorem leads_of_parent {other : DisjointSet} (same : ∀ x, other.parentOf x = s.parentOf x)
    {x r : Nat} (leads : s.Leads x r) : other.Leads x r := by
  induction leads with
  | @root x fixed => exact .root ((same x).trans fixed)
  | @step x r moves _ ih =>
    refine .step ?_ ?_
    · rwa [same]
    · rwa [same]

theorem raise_alike {x : Nat} (ranked : s.Ranked) (inside : x < s.size)
    (fixed : s.parentOf x = x) : s.Alike (s.raise x) := by
  have same : ∀ y, (s.raise x).parentOf y = s.parentOf y := fun _ => rfl
  exact ⟨raise_ranked ranked inside fixed, rfl,
    leads_of_parent fun y => (same y).symm, leads_of_parent same⟩

-- A state in which one root hangs below another.
structure Hung (s later : DisjointSet) (low high : Nat) : Prop where
  ranked : later.Ranked
  size : later.size = s.size
  leads : ∀ {x r : Nat}, s.Leads x r → later.Leads x (if r = low then high else r)

theorem relink_hung {low high : Nat} (ranked : s.Ranked) (low_inside : low < s.size)
    (high_inside : high < s.size) (low_root : s.parentOf low = low)
    (high_root : s.parentOf high = high) (higher : s.rankOf low < s.rankOf high) :
    s.Hung (s.relink low high) low high := by
  have apart : high ≠ low := by
    rintro rfl
    exact Nat.lt_irrefl _ higher
  refine ⟨relink_ranked ranked low_inside high_inside higher, relink_size low high, ?_⟩
  intro x r leads
  induction leads with
  | @root x fixed =>
    by_cases same : x = low
    · rw [if_pos same, same]
      exact relink_step low_inside apart (relink_root low_inside high_root apart)
    · rw [if_neg same]
      exact relink_root low_inside fixed same
  | @step x r moves _ ih =>
    have other : x ≠ low := by
      rintro rfl
      exact moves low_root
    exact relink_other low_inside other moves ih

theorem hung_together {later : DisjointSet} {low high : Nat} (ranked : s.Ranked)
    (hung : s.Hung later low high) (x y : Nat) :
    later.Together x y ↔ s.Together x y ∨ s.Leads x low ∧ s.Leads y high ∨
      s.Leads x high ∧ s.Leads y low := by
  have moved : ∀ z, later.root z = if s.root z = low then high else s.root z := fun z =>
    (leads_iff hung.ranked).mp (hung.leads (root_leads ranked z))
  rw [together_iff hung.ranked, together_iff ranked, moved, moved]
  simp only [leads_iff ranked]
  by_cases here : s.root x = low
  · by_cases there : s.root y = low
    · simp [here, there]
    · simp [here, there, Ne.symm there, eq_comm]
  · by_cases there : s.root y = low
    · simp [here, there]
    · simp [here, there]

theorem together_root {x y r : Nat} (leads : s.Leads y r) : s.Leads x r ↔ s.Together x y := by
  constructor
  · intro path
    exact ⟨r, path, leads⟩
  · rintro ⟨other, path, again⟩
    rwa [leads_unique leads again]

theorem hung_alike {middle later : DisjointSet} {low high : Nat} (alike : s.Alike middle)
    (hung : middle.Hung later low high) : s.Hung later low high :=
  ⟨hung.ranked, hung.size.trans alike.size, fun leads => hung.leads (alike.leads.mpr leads)⟩

-- Two different roots are linked by rank; of equals the first rises and takes the second.
def link (s : DisjointSet) (a b : Nat) : DisjointSet :=
  if s.rankOf a < s.rankOf b then s.relink a b
  else if s.rankOf b < s.rankOf a then s.relink b a
  else (s.raise a).relink b a

def lower (s : DisjointSet) (a b : Nat) : Nat := if s.rankOf a < s.rankOf b then a else b

def upper (s : DisjointSet) (a b : Nat) : Nat := if s.rankOf a < s.rankOf b then b else a

theorem union_same (ranked : s.Ranked) {x y : Nat} (same : s.root x = s.root y) :
    s.union x y = (false, s.searched x y) := by
  have first : (s.find x).1 = s.root x := rfl
  unfold union
  simp only [first, second_root ranked, if_pos same]
  rfl

theorem union_apart (ranked : s.Ranked) {x y : Nat} (apart : s.root x ≠ s.root y) :
    s.union x y = (true, (s.searched x y).link (s.root x) (s.root y)) := by
  have first : (s.find x).1 = s.root x := rfl
  have state : ((s.find x).2.find y).2 = s.searched x y := rfl
  unfold union
  simp only [first, second_root ranked, state, if_neg apart]
  generalize s.searched x y = t
  by_cases less : t.rankOf (s.root x) < t.rankOf (s.root y)
  · rw [if_pos less, link, if_pos less]
    rfl
  · rw [if_neg less, link, if_neg less]
    by_cases higher : t.rankOf (s.root y) < t.rankOf (s.root x)
    · rw [if_pos higher, if_pos higher]
      rfl
    · rw [if_neg higher, if_neg higher]
      rfl

theorem link_hung (ranked : s.Ranked) {a b : Nat} (a_inside : a < s.size) (b_inside : b < s.size)
    (a_root : s.parentOf a = a) (b_root : s.parentOf b = b) (apart : a ≠ b) :
    s.Hung (s.link a b) (s.lower a b) (s.upper a b) := by
  unfold link lower upper
  by_cases less : s.rankOf a < s.rankOf b
  · simp only [if_pos less]
    exact relink_hung ranked a_inside b_inside a_root b_root less
  · simp only [if_neg less]
    by_cases higher : s.rankOf b < s.rankOf a
    · rw [if_pos higher]
      exact relink_hung ranked b_inside a_inside b_root a_root higher
    · rw [if_neg higher]
      have raised := raise_alike ranked a_inside a_root
      have bound : a < s.rank.size := ranked.sizes ▸ a_inside
      have rises : (s.raise a).rankOf b < (s.raise a).rankOf a := by
        rw [raise_rank bound, raise_rank bound, if_neg (Ne.symm apart), if_pos rfl]
        omega
      exact hung_alike raised
        (relink_hung raised.ranked b_inside a_inside b_root a_root rises)

theorem searched_link_hung (ranked : s.Ranked) {x y : Nat} (x_inside : x < s.size)
    (y_inside : y < s.size) (apart : s.root x ≠ s.root y) :
    s.Hung ((s.searched x y).link (s.root x) (s.root y))
      ((s.searched x y).lower (s.root x) (s.root y))
      ((s.searched x y).upper (s.root x) (s.root y)) := by
  have alike := searched_alike ranked x y
  have inside : ∀ {z : Nat}, z < s.size → s.root z < (s.searched x y).size := by
    intro z z_inside
    rw [alike.size]
    exact leads_inside ranked (root_leads ranked z) z_inside
  have fixed : ∀ z, (s.searched x y).parentOf (s.root z) = s.root z := fun z =>
    leads_root (alike.leads.mpr (root_leads ranked z))
  exact hung_alike alike
    (link_hung alike.ranked (inside x_inside) (inside y_inside) (fixed x) (fixed y) apart)

theorem lower_upper (s : DisjointSet) (a b : Nat) :
    s.lower a b = a ∧ s.upper a b = b ∨ s.lower a b = b ∧ s.upper a b = a := by
  unfold lower upper
  by_cases less : s.rankOf a < s.rankOf b
  · exact .inl ⟨if_pos less, if_pos less⟩
  · exact .inr ⟨if_neg less, if_neg less⟩

structure Joined (s later : DisjointSet) (x y : Nat) : Prop where
  ranked : later.Ranked
  size : later.size = s.size
  together : ∀ a b, later.Together a b ↔
    s.Together a b ∨ s.Together a x ∧ s.Together b y ∨ s.Together a y ∧ s.Together b x

theorem union_joined (ranked : s.Ranked) {x y : Nat} (x_inside : x < s.size)
    (y_inside : y < s.size) : s.Joined (s.union x y).2 x y := by
  have leads_x := root_leads ranked x
  have leads_y := root_leads ranked y
  by_cases same : s.root x = s.root y
  · have alike := searched_alike ranked x y
    rw [union_same ranked same]
    refine ⟨alike.ranked, alike.size, fun a b => ?_⟩
    rw [alike_together alike]
    simp only [together_iff ranked, same]
    constructor
    · exact .inl
    · rintro (old | ⟨here, there⟩ | ⟨here, there⟩)
      · exact old
      · exact here.trans there.symm
      · exact here.trans there.symm
  · have hung := searched_link_hung ranked x_inside y_inside same
    rw [union_apart ranked same]
    refine ⟨hung.ranked, hung.size, fun a b => ?_⟩
    rw [hung_together ranked hung]
    rcases lower_upper (s.searched x y) (s.root x) (s.root y) with ⟨low, high⟩ | ⟨low, high⟩
    · rw [low, high, together_root leads_x, together_root leads_y, together_root leads_y,
        together_root leads_x]
    · rw [low, high, together_root leads_x, together_root leads_y, together_root leads_y,
        together_root leads_x]
      exact or_congr_right or_comm

theorem of_size_parent (n x : Nat) : (ofSize n).parentOf x = x := by
  by_cases inside : x < n <;> simp [ofSize, parentOf, inside]

theorem of_size_ranked (n : Nat) : (ofSize n).Ranked where
  sizes := by simp [ofSize, size]
  inside x inside := by rwa [of_size_parent]
  rising x moves := absurd (of_size_parent n x) moves

theorem of_size_together (n x y : Nat) : (ofSize n).Together x y ↔ x = y := by
  constructor
  · rintro ⟨r, here, there⟩
    have first := leads_unique (.root (of_size_parent n x)) here
    have second := leads_unique (.root (of_size_parent n y)) there
    exact first.trans second.symm
  · rintro rfl
    exact ⟨x, .root (of_size_parent n x), .root (of_size_parent n x)⟩

end TripleTable.Pattern.DisjointSet
