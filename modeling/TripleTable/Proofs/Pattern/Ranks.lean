import Mathlib.Algebra.Group.Nat.Defs
import TripleTable.Proofs.Pattern.Histories
set_option autoImplicit false

/-!
How deep a disjoint set grows. The class of a root holds at least as many numbers as two to the
rank of the root, so neither a rank nor a path exceeds the logarithm of the size, whatever was
called before and however far its paths are shortened.
-/
namespace TripleTable.Pattern.DisjointSet

-- The path from a number to its root with the count of its steps, which are the rounds of the
-- first loop of a look-up.
inductive Climbs (s : DisjointSet) : Nat → Nat → Nat → Prop
  | root {x : Nat} : s.parentOf x = x → Climbs s 0 x x
  | step {k x r : Nat} : s.parentOf x ≠ x → Climbs s k (s.parentOf x) r → Climbs s (k + 1) x r

-- The class of a root.
def members (s : DisjointSet) (r : Nat) : Finset Nat :=
  (Finset.range s.size).filter fun x => (s.find x).1 = r

def Weighted (s : DisjointSet) : Prop :=
  ∀ r, r < s.size → s.root r = r → 2 ^ s.rankOf r ≤ (s.members r).card

variable {s t : DisjointSet} {n : Nat} {calls : List Call}

/-! ### Paths -/

theorem leads_climbs {x r : Nat} (leads : s.Leads x r) : ∃ k, s.Climbs k x r := by
  induction leads with
  | root fixed => exact ⟨0, .root fixed⟩
  | step moves _ ih =>
    obtain ⟨k, climbs⟩ := ih
    exact ⟨k + 1, .step moves climbs⟩

theorem climbs_rank (ranked : s.Ranked) {k x r : Nat} (climbs : s.Climbs k x r) :
    s.rankOf x + k ≤ s.rankOf r := by
  induction climbs with
  | root _ => exact Nat.le_refl _
  | @step k x r moves _ ih =>
    have higher := ranked.rising x moves
    omega

theorem root_fixed (ranked : s.Ranked) {r : Nat} : s.root r = r ↔ s.parentOf r = r := by
  constructor
  · intro fixed
    have parent := leads_root (root_leads ranked r)
    rwa [fixed] at parent
  · intro fixed
    exact (leads_iff ranked).mp (.root fixed)

theorem rank_of_root (ranked : s.Ranked) (x : Nat) : s.rankOf x ≤ s.rankOf (s.root x) := by
  rcases leads_rank ranked (root_leads ranked x) with same | higher
  · exact Nat.le_of_eq (congrArg s.rankOf same)
  · exact Nat.le_of_lt higher

/-! ### What a call does to the ranks -/

theorem link_rank_of {a b : Nat} (inside : a < s.rank.size) (r : Nat) :
    (s.link a b).rankOf r =
      if s.rankOf a = s.rankOf b ∧ r = a then s.rankOf a + 1 else s.rankOf r := by
  unfold link
  by_cases less : s.rankOf a < s.rankOf b
  · rw [if_pos less, if_neg fun both => Nat.ne_of_lt less both.1]
    rfl
  · rw [if_neg less]
    by_cases higher : s.rankOf b < s.rankOf a
    · rw [if_pos higher, if_neg fun both => Nat.ne_of_gt higher both.1]
      rfl
    · have equal : s.rankOf a = s.rankOf b := by omega
      rw [if_neg higher]
      change (s.raise a).rankOf r = _
      rw [raise_rank inside]
      simp only [equal, true_and]

theorem link_rank_step {a b : Nat} (inside : a < s.rank.size) (r : Nat) :
    (s.link a b).rankOf r = s.rankOf r ∨ (s.link a b).rankOf r = s.rankOf r + 1 := by
  rw [link_rank_of inside]
  by_cases raised : s.rankOf a = s.rankOf b ∧ r = a
  · rw [if_pos raised, raised.2]
    exact .inr rfl
  · rw [if_neg raised]
    exact .inl rfl

theorem union_rank_step (ranked : s.Ranked) {x y : Nat} (x_inside : x < s.size) (r : Nat) :
    (s.union x y).2.rankOf r = s.rankOf r ∨ (s.union x y).2.rankOf r = s.rankOf r + 1 := by
  have searched : (s.searched x y).rankOf r = s.rankOf r := rank_of_twin (searched_rank x y) r
  by_cases same : s.root x = s.root y
  · rw [union_same ranked same]
    exact .inl searched
  · have inside : s.root x < (s.searched x y).rank.size := by
      rw [searched_rank, ranked.sizes]
      exact leads_inside ranked (root_leads ranked x) x_inside
    rw [union_apart ranked same, ← searched]
    exact link_rank_step inside r

theorem call_rank_step (ranked : s.Ranked) {c : Call} (within : c.Within s.size) (r : Nat) :
    (s.call c).2.rankOf r = s.rankOf r ∨ (s.call c).2.rankOf r = s.rankOf r + 1 := by
  cases c with
  | union x y => exact union_rank_step ranked within.1 r
  | find x => exact .inl (rank_of_twin (asking_twin ranked (c := .find x) trivial).rank r)
  | same x y => exact .inl (rank_of_twin (asking_twin ranked (c := .same x y) trivial).rank r)

/-! ### The weight of a class -/

theorem mem_members {x r : Nat} : x ∈ s.members r ↔ x < s.size ∧ s.root x = r := by
  rw [members, Finset.mem_filter, Finset.mem_range]
  rfl

theorem twin_members (twin : s.Twin t) (r : Nat) : t.members r = s.members r := by
  ext x
  rw [mem_members, mem_members, twin.size, twin.root]

theorem twin_weighted (twin : s.Twin t) (weighted : s.Weighted) : t.Weighted := by
  intro r inside fixed
  rw [rank_of_twin twin.rank, twin_members twin]
  rw [twin.size] at inside
  rw [twin.root] at fixed
  exact weighted r inside fixed

theorem members_apart {a b : Nat} (apart : a ≠ b) : Disjoint (s.members a) (s.members b) := by
  rw [Finset.disjoint_left]
  intro x here there
  exact apart ((mem_members.mp here).2.symm.trans (mem_members.mp there).2)

section
variable {low high : Nat}

theorem hung_members_high (ranked : s.Ranked) (hung : s.Hung t low high) (apart : low ≠ high) :
    (s.members low).card + (s.members high).card ≤ (t.members high).card := by
  rw [← Finset.card_union_of_disjoint (members_apart apart)]
  refine Finset.card_le_card fun x member => ?_
  rw [mem_members, hung.size, hung_root ranked hung]
  rcases Finset.mem_union.mp member with below | above
  · obtain ⟨inside, root⟩ := mem_members.mp below
    exact ⟨inside, if_pos root⟩
  · obtain ⟨inside, root⟩ := mem_members.mp above
    rw [root]
    exact ⟨inside, ite_self _⟩

theorem hung_members_other (ranked : s.Ranked) (hung : s.Hung t low high) {r : Nat}
    (not_low : r ≠ low) (not_high : r ≠ high) : t.members r = s.members r := by
  ext x
  rw [mem_members, mem_members, hung.size, hung_root ranked hung]
  by_cases moved : s.root x = low
  · simp [moved, Ne.symm not_low, Ne.symm not_high]
  · rw [if_neg moved]

-- The root on top may rise as far as the two classes together carry it.
theorem hung_weighted (ranked : s.Ranked) (hung : s.Hung t low high) (apart : low ≠ high)
    (light : 2 ^ s.rankOf low ≤ (s.members low).card)
    (heavy : 2 ^ s.rankOf high ≤ (s.members high).card)
    (kept : ∀ r, r ≠ high → t.rankOf r = s.rankOf r)
    (risen : 2 ^ t.rankOf high ≤ 2 ^ s.rankOf low + 2 ^ s.rankOf high) (weighted : s.Weighted) :
    t.Weighted := by
  intro r inside fixed
  by_cases top : r = high
  · subst top
    calc 2 ^ t.rankOf r ≤ 2 ^ s.rankOf low + 2 ^ s.rankOf r := risen
      _ ≤ (s.members low).card + (s.members r).card := Nat.add_le_add light heavy
      _ ≤ (t.members r).card := hung_members_high ranked hung apart
  · rw [hung_root ranked hung] at fixed
    have not_low : r ≠ low := by
      rintro rfl
      by_cases moved : s.root r = r
      · rw [if_pos moved] at fixed
        exact top fixed.symm
      · rw [if_neg moved] at fixed
        exact moved fixed
    have before : s.root r = r := by
      by_cases moved : s.root r = low
      · rw [if_pos moved] at fixed
        exact absurd fixed.symm top
      · rwa [if_neg moved] at fixed
    rw [kept r top, hung_members_other ranked hung not_low top]
    rw [hung.size] at inside
    exact weighted r inside before

end

theorem link_risen {a b : Nat} (inside : a < s.rank.size) :
    2 ^ (s.link a b).rankOf (s.upper a b) ≤
      2 ^ s.rankOf (s.lower a b) + 2 ^ s.rankOf (s.upper a b) := by
  rw [link_rank_of inside]
  unfold lower upper
  by_cases less : s.rankOf a < s.rankOf b
  · rw [if_neg fun both => Nat.ne_of_lt less both.1, if_pos less, if_pos less]
    exact Nat.le_add_left _ _
  · rw [if_neg less, if_neg less]
    by_cases equal : s.rankOf a = s.rankOf b
    · rw [if_pos ⟨equal, rfl⟩, ← equal, Nat.pow_succ]
      omega
    · rw [if_neg fun both => equal both.1]
      exact Nat.le_add_left _ _

theorem link_kept {a b r : Nat} (inside : a < s.rank.size) (other : r ≠ s.upper a b) :
    (s.link a b).rankOf r = s.rankOf r := by
  rw [link_rank_of inside]
  refine if_neg ?_
  rintro ⟨equal, rfl⟩
  rw [upper, if_neg (Nat.not_lt.mpr (Nat.le_of_eq equal.symm))] at other
  exact other rfl

theorem link_weighted (ranked : s.Ranked) (weighted : s.Weighted) {a b : Nat}
    (a_inside : a < s.size) (b_inside : b < s.size) (a_root : s.parentOf a = a)
    (b_root : s.parentOf b = b) (apart : a ≠ b) : (s.link a b).Weighted := by
  have bound : a < s.rank.size := ranked.sizes ▸ a_inside
  have hung := link_hung ranked a_inside b_inside a_root b_root apart
  have a_weight := weighted a a_inside ((root_fixed ranked).mpr a_root)
  have b_weight := weighted b b_inside ((root_fixed ranked).mpr b_root)
  have kept : ∀ r, r ≠ s.upper a b → (s.link a b).rankOf r = s.rankOf r := fun _ other =>
    link_kept bound other
  have risen := link_risen (b := b) bound
  rcases lower_upper s a b with ⟨low, high⟩ | ⟨low, high⟩
  · rw [low, high] at hung risen
    rw [high] at kept
    exact hung_weighted ranked hung apart a_weight b_weight kept risen weighted
  · rw [low, high] at hung risen
    rw [high] at kept
    exact hung_weighted ranked hung (Ne.symm apart) b_weight a_weight kept risen weighted

-- The two look-ups that a union begins with change no weight.
theorem union_weighted (ranked : s.Ranked) (weighted : s.Weighted) {x y : Nat}
    (x_inside : x < s.size) (y_inside : y < s.size) : (s.union x y).2.Weighted := by
  have twin := searched_twin ranked x y
  have searched := twin_weighted twin weighted
  by_cases same : s.root x = s.root y
  · rw [union_same ranked same]
    exact searched
  · have inside : ∀ {z : Nat}, z < s.size → s.root z < (s.searched x y).size := by
      intro z z_inside
      rw [twin.size]
      exact leads_inside ranked (root_leads ranked z) z_inside
    have fixed : ∀ z, (s.searched x y).parentOf (s.root z) = s.root z := by
      intro z
      rw [← twin.root z]
      exact leads_root (root_leads twin.second z)
    rw [union_apart ranked same]
    exact link_weighted twin.second searched (inside x_inside) (inside y_inside) (fixed x)
      (fixed y) same

theorem call_weighted (ranked : s.Ranked) (weighted : s.Weighted) {c : Call}
    (within : c.Within s.size) : (s.call c).2.Weighted := by
  cases c with
  | union x y => exact union_weighted ranked weighted within.1 within.2
  | find x => exact twin_weighted (asking_twin ranked (c := .find x) trivial) weighted
  | same x y => exact twin_weighted (asking_twin ranked (c := .same x y) trivial) weighted

theorem of_size_weighted (n : Nat) : (ofSize n).Weighted := by
  intro r inside fixed
  have rank : (ofSize n).rankOf r = 0 := by
    by_cases bound : r < n <;> simp [ofSize, rankOf, bound]
  rw [rank, Nat.pow_zero, Nat.one_le_iff_ne_zero, Finset.card_ne_zero]
  exact ⟨r, mem_members.mpr ⟨inside, fixed⟩⟩

-- By induction on the history: each call keeps the weight of all classes.
theorem history_weighted (within : ∀ c ∈ calls, c.Within n) : (state n calls).Weighted := by
  induction calls using List.reverseRecOn with
  | nil => exact of_size_weighted n
  | append_singleton calls c ih =>
    have earlier : ∀ d ∈ calls, d.Within n := fun d member =>
      within d (List.mem_append_left _ member)
    have reached := history_reached earlier
    have last : c.Within (state n calls).size := by
      rw [reached.size]
      exact within c (List.mem_append_right _ List.mem_cons_self)
    rw [state_next]
    exact call_weighted reached.ranked (ih earlier) last

/-! ### The bounds -/

theorem weighted_rank (ranked : s.Ranked) (weighted : s.Weighted) {x : Nat} (inside : x < s.size) :
    s.rankOf x ≤ Nat.log2 s.size := by
  have root_inside := leads_inside ranked (root_leads ranked x) inside
  have fixed := (root_fixed ranked).mpr (leads_root (root_leads ranked x))
  have weight : 2 ^ s.rankOf (s.root x) ≤ s.size := by
    calc 2 ^ s.rankOf (s.root x) ≤ (s.members (s.root x)).card := weighted _ root_inside fixed
      _ ≤ (Finset.range s.size).card := Finset.card_filter_le _ _
      _ = s.size := Finset.card_range s.size
  have inhabited : s.size ≠ 0 := Nat.ne_of_gt (Nat.zero_lt_of_lt inside)
  exact Nat.le_trans (rank_of_root ranked x) ((Nat.le_log2 inhabited).mpr weight)

theorem log_two_small (small : n < 2 ^ 64) : Nat.log2 n < 64 := by
  by_cases empty : n = 0
  · subst empty
    decide
  · exact (Nat.log2_lt empty).mpr small

theorem rank_outside (ranked : s.Ranked) {x : Nat} (outside : s.size ≤ x) : s.rankOf x = 0 := by
  have beyond : ¬ x < s.rank.size := by
    rw [ranked.sizes]
    exact Nat.not_lt.mpr outside
  simp [rankOf, Array.getD, beyond]

-- Union by rank keeps all paths short, and no rank that a call raises outgrows its byte.
theorem forest_shallow (n : Nat) (calls : List Call) (within : ∀ c ∈ calls, c.Within n) :
    (∀ x, (state n calls).parentOf x ≠ x →
      (state n calls).rankOf x < (state n calls).rankOf ((state n calls).parentOf x)) ∧
    (∀ r, r < n → (state n calls).parentOf r = r →
      2 ^ (state n calls).rankOf r ≤
        ((Finset.range n).filter fun x => ((state n calls).find x).1 = r).card) ∧
    (∀ x, x < n → (state n calls).rankOf x ≤ Nat.log2 n) ∧
    (∀ x, x < n → ∃ k ≤ Nat.log2 n,
      (state n calls).Climbs k x ((state n calls).find x).1) ∧
    (n < 2 ^ 64 → ∀ c, c.Within n → ∀ r,
      ((state n calls).call c).2.rankOf r = (state n calls).rankOf r ∨
        ((state n calls).call c).2.rankOf r = (state n calls).rankOf r + 1 ∧
          (state n calls).rankOf r + 1 < 2 ^ 8) := by
  have reached := history_reached within
  have ranked := reached.ranked
  have size := reached.size
  have weighted := history_weighted within
  have rank_bound : ∀ x, x < n → (state n calls).rankOf x ≤ Nat.log2 n := by
    intro x inside
    have bound := weighted_rank ranked weighted (size.symm ▸ inside)
    rwa [size] at bound
  refine ⟨ranked.rising, fun r inside root => ?_, rank_bound, fun x inside => ?_, ?_⟩
  · have weight := weighted r (size.symm ▸ inside) ((root_fixed ranked).mpr root)
    rwa [members, size] at weight
  · have leads := root_leads ranked x
    have root_inside := leads_inside ranked leads (size.symm ▸ inside)
    rw [size] at root_inside
    obtain ⟨k, climbs⟩ := leads_climbs leads
    have steps := climbs_rank ranked climbs
    have top := rank_bound _ root_inside
    exact ⟨k, by omega, climbs⟩
  · intro small c call_within r
    have raised := call_rank_step ranked (size.symm ▸ call_within) r
    have low : (state n calls).rankOf r < 64 := by
      by_cases inside : r < n
      · exact Nat.lt_of_le_of_lt (rank_bound r inside) (log_two_small small)
      · rw [rank_outside ranked (by omega)]
        decide
    exact raised.imp_right fun higher => ⟨higher, by omega⟩

-- Two pairs and a look-up. The union of the pairs raises a rank to the logarithm of the size.
def pairsJoined : List Call := [.union 0 1, .union 2 3, .find 3]

theorem pairs_joined_shallow :
    (∀ c ∈ pairsJoined, c.Within 4) ∧ 4 < 2 ^ 64 ∧ (Call.union 1 3).Within 4 ∧
      2 ^ 1 ≤ ((Finset.range 4).filter fun x => ((state 4 pairsJoined).find x).1 = 2).card ∧
      (∃ k ≤ 2, (state 4 pairsJoined).Climbs k 3 2) ∧
      ((state 4 pairsJoined).union 1 3).2.rankOf 0 = Nat.log2 4 ∧
      (state 4 pairsJoined).rankOf 0 + 1 < 2 ^ 8 := by
  have within : ∀ c ∈ pairsJoined, c.Within 4 := by simp [pairsJoined, Call.Within]
  have small : 4 < 2 ^ 64 := by decide
  have inside : (Call.union 1 3).Within 4 := ⟨by decide, by decide⟩
  obtain ⟨-, weight, -, path, bytes⟩ := forest_shallow 4 pairsJoined within
  have raised := bytes small (.union 1 3) inside 0
  have risen := raised.resolve_left (by decide)
  exact ⟨within, small, inside, weight 2 (by decide) (by decide), path 3 (by decide), by decide,
    risen.2⟩

end TripleTable.Pattern.DisjointSet
