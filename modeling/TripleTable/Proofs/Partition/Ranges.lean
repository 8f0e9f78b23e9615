import Mathlib.Data.Int.Interval
import Mathlib.Data.Rat.Floor
import Mathlib.Data.Set.Card
import TripleTable.Proofs.Partition.Expansion
set_option autoImplicit false

/-!
Which partitions a comparison with an integer is expanded into. An equality takes the one of its
value, an inclusive bound those that it reaches, and a strict bound those that lie below it entirely.
-/
namespace TripleTable.Partition
open Sql (ComparisonOp)
open Shape (Comparison)

def minInteger : Int := -0x8000000000000000

def Fits (n : Int) : Prop := minInteger ≤ n ∧ n ≤ maxInteger

instance (n : Int) : Decidable (Fits n) := inferInstanceAs (Decidable (_ ∧ _))

-- The numbers that a partition holds.
def held (floor p : Int) : Set Int := {x | p * floor ≤ x ∧ x < (p + 1) * floor}

def selected : ComparisonOp → Int → Int → Set Int
  | .eq, floor, v => {⌊(v : ℚ) / floor⌋}
  | .le, floor, v => {p | 0 ≤ p ∧ ∃ x ∈ held floor p, 0 ≤ x ∧ x ≤ v}
  | .lt, floor, v => {p | 0 ≤ p ∧ ∀ x ∈ held floor p, x < v}
  | _, _, _ => ∅

def counting (bound : Int) : List Int := (List.range bound.toNat).map Int.ofNat

-- The selected partitions by the number of the one that holds the value.
def listing : ComparisonOp → Int → List Int
  | .eq, k => [k]
  | .le, k => counting (k + 1)
  | .lt, k => counting k
  | _, _ => []

theorem mem_counting {p bound : Int} : p ∈ counting bound ↔ 0 ≤ p ∧ p < bound := by
  simp only [counting, List.mem_map, List.mem_range]
  constructor
  · rintro ⟨n, inside, rfl⟩
    exact ⟨Int.natCast_nonneg n, Int.lt_toNat.mp inside⟩
  · rintro ⟨nonneg, inside⟩
    exact ⟨p.toNat, (Int.toNat_lt_toNat (Int.lt_of_le_of_lt nonneg inside)).mpr inside,
      Int.toNat_of_nonneg nonneg⟩

theorem counting_length (bound : Int) : (counting bound).length = bound.toNat := by
  rw [counting, List.length_map, List.length_range]

theorem counting_increasing (bound : Int) : (counting bound).Pairwise (· < ·) := by
  rw [counting, List.pairwise_map]
  exact List.pairwise_lt_range.imp fun less => Int.ofNat_lt.mpr less

theorem listing_increasing (op : ComparisonOp) (k : Int) : (listing op k).Pairwise (· < ·) := by
  cases op with
  | eq => exact List.pairwise_singleton _ _
  | le => exact counting_increasing _
  | lt => exact counting_increasing _
  | _ => exact .nil

theorem listing_fits {op : ComparisonOp} {k : Int} (fits : Fits k) : ∀ p ∈ listing op k, Fits p := by
  intro p member
  unfold Fits minInteger at fits ⊢
  cases op with
  | eq => rwa [List.mem_singleton.mp member]
  | le =>
    have bounds := mem_counting.mp member
    omega
  | lt =>
    have bounds := mem_counting.mp member
    omega
  | _ => cases member

section
variable {floor v : Int}

theorem floor_exact (positive : 0 < floor) : ⌊(v : ℚ) / floor⌋ = v / floor := by
  have natural : floor = (floor.toNat : Int) := (Int.toNat_of_nonneg (Int.le_of_lt positive)).symm
  rw [natural]
  exact Rat.floor_intCast_div_natCast v floor.toNat

theorem floor_fits (fits : Fits v) (positive : 0 < floor) : Fits (v / floor) := by
  obtain ⟨low, high⟩ := fits
  constructor
  · rw [Int.le_ediv_iff_mul_le positive]
    unfold minInteger at low ⊢
    omega
  · apply Int.lt_add_one_iff.mp
    rw [Int.ediv_lt_iff_lt_mul positive]
    unfold maxInteger at high ⊢
    omega

theorem held_below {p : Int} (positive : 0 < floor) :
    (∀ x ∈ held floor p, x < v) ↔ (p + 1) * floor ≤ v := by
  constructor
  · intro all
    have last : (p + 1) * floor - 1 ∈ held floor p := by
      rw [held, Set.mem_ofPred_eq, Int.add_mul]
      omega
    have less := all _ last
    omega
  · intro ends x member
    exact Int.lt_of_lt_of_le member.2 ends

theorem held_reached {p : Int} (positive : 0 < floor) (nonneg : 0 ≤ p) :
    (∃ x ∈ held floor p, 0 ≤ x ∧ x ≤ v) ↔ p * floor ≤ v := by
  constructor
  · rintro ⟨x, member, -, reached⟩
    exact Int.le_trans member.1 reached
  · intro begins
    refine ⟨p * floor, ?_, Int.mul_nonneg nonneg (Int.le_of_lt positive), begins⟩
    rw [held, Set.mem_ofPred_eq, Int.add_mul]
    omega

theorem selected_listing (op : ComparisonOp) (v : Int) (positive : 0 < floor) :
    selected op floor v = {p | p ∈ listing op (v / floor)} := by
  ext p
  cases op with
  | eq =>
    rw [selected, floor_exact positive]
    exact List.mem_singleton.symm
  | le =>
    change 0 ≤ p ∧ _ ↔ p ∈ counting _
    rw [mem_counting, Int.lt_add_one_iff]
    refine and_congr_right fun nonneg => ?_
    rw [held_reached positive nonneg, Int.le_ediv_iff_mul_le positive]
  | lt =>
    change 0 ≤ p ∧ _ ↔ p ∈ counting _
    rw [mem_counting]
    refine and_congr_right fun _ => ?_
    rw [held_below positive, ← Int.add_one_le_iff, Int.le_ediv_iff_mul_le positive]
  | _ => exact iff_of_false id List.not_mem_nil

theorem selected_count (op : ComparisonOp) (v : Int) (positive : 0 < floor) :
    (selected op floor v).ncard = (listing op (v / floor)).length := by
  have distinct : (listing op (v / floor)).Nodup := (listing_increasing _ _).imp Int.ne_of_lt
  rw [selected_listing op v positive, ← List.toFinset_card_of_nodup distinct,
    ← Set.ncard_coe_finset, List.coe_toFinset]

theorem selected_none (op : ComparisonOp) (v : Int) (positive : 0 < floor) :
    selected op floor v = ∅ ↔ listing op (v / floor) = [] := by
  rw [selected_listing op v positive, Set.eq_empty_iff_forall_notMem, List.eq_nil_iff_forall_not_mem]
  rfl

end

-- A bound beyond the integers stays at the greatest, which is refused as the bound itself would be.
theorem below_counting (column : Text) (bound : Int) :
    below column (min bound maxInteger) =
      if 128 < (counting bound).length then
        .error (.rangeTooLarge column (min (counting bound).length maxInteger) 128)
      else .ok (counting bound) := by
  rw [below, counting_length]
  by_cases wide : maxPartitions < bound
  · have whole : (bound.toNat : Int) = bound := by
      unfold maxPartitions at wide
      omega
    have capped : maxPartitions < min bound maxInteger := lt_min wide (by decide)
    have many : 128 < bound.toNat := by
      unfold maxPartitions at wide
      omega
    rw [if_pos capped, if_pos many, whole]
    rfl
  · have kept : min bound maxInteger = bound := by
      unfold maxPartitions at wide
      unfold maxInteger
      omega
    have narrow : ¬ 128 < bound.toNat := by
      unfold maxPartitions at wide
      omega
    rw [kept, if_neg wide, if_neg narrow]
    rfl

theorem partitions_listing {c : Comparison} {k : Int}
    (ranged : c.op = .eq ∨ c.op = .le ∨ c.op = .lt) (fits : k ≤ maxInteger) :
    partitions c k = if 128 < (listing c.op k).length then
        .error (.rangeTooLarge c.left.text (min (listing c.op k).length maxInteger) 128)
      else .ok (listing c.op k) := by
  unfold partitions
  rcases ranged with op | op | op
  · rw [op]
    rfl
  · rw [op]
    exact below_counting _ _
  · rw [op]
    have kept : below c.left.text k = below c.left.text (min k maxInteger) := by
      rw [min_eq_left fits]
    exact kept.trans (below_counting _ _)

theorem expand_listing {c : Comparison} {a : Attribute} (qualifier : Text) {v : Int}
    (right : c.right = .integer v) (fits : Fits v) (positive : 0 < a.floor)
    (ranged : c.op = .eq ∨ c.op = .le ∨ c.op = .lt) :
    expand c a qualifier =
      if 128 < (listing c.op (v / a.floor)).length then
        .error (.rangeTooLarge c.left.text
          (min (listing c.op (v / a.floor)).length maxInteger) 128)
      else if listing c.op (v / a.floor) = [] then .ok none
      else .ok (some ⟨qualifier ++ "." ++ a.targetColumn, listing c.op (v / a.floor)⟩) := by
  unfold expand
  rw [if_neg (Int.not_le.mpr positive), right]
  simp only [partitionOf?]
  rw [partitions_listing ranged (floor_fits fits positive).2]
  by_cases wide : 128 < (listing c.op (v / a.floor)).length
  · rw [if_pos wide, if_pos wide]
    rfl
  · rw [if_neg wide, if_neg wide]
    cases listing c.op (v / a.floor) with
    | nil => rfl
    | cons first rest => rfl

-- The quotient and the bound behind it are computed exactly: neither leaves the integers but
-- where the bound stays at the greatest, and a range that wide is refused.
theorem expand_exact (c : Comparison) (a : Attribute) (qualifier : Text) (v : Int)
    (right : c.right = .integer v) (fits : Fits v) (positive : 0 < a.floor)
    (ranged : c.op = .eq ∨ c.op = .le ∨ c.op = .lt) :
    (expand c a qualifier = .ok none ↔ selected c.op a.floor v = ∅) ∧
    (∀ reason, expand c a qualifier = .error reason ↔
      128 < (selected c.op a.floor v).ncard ∧ reason = .rangeTooLarge c.left.text
        (min (selected c.op a.floor v).ncard maxInteger) 128) ∧
    (∀ constraint, expand c a qualifier = .ok (some constraint) →
      constraint.column = qualifier ++ "." ++ a.targetColumn ∧
      constraint.partitions.Pairwise (· < ·) ∧
      (∀ p, p ∈ constraint.partitions ↔ p ∈ selected c.op a.floor v) ∧
      (∀ p ∈ constraint.partitions, Fits p) ∧ constraint.partitions.length ≤ 128) ∧
    partitionOf? a.floor c.right = some ⌊(v : ℚ) / a.floor⌋ ∧ Fits (v / a.floor) ∧
    Fits (min (v / a.floor + 1) maxInteger) := by
  have quotient := floor_fits fits positive
  have next : Fits (min (v / a.floor + 1) maxInteger) := by
    unfold Fits minInteger maxInteger at *
    omega
  have value : partitionOf? a.floor c.right = some ⌊(v : ℚ) / a.floor⌋ := by
    rw [right, floor_exact positive]
    rfl
  rw [selected_none c.op v positive, selected_count c.op v positive,
    selected_listing c.op v positive, expand_listing qualifier right fits positive ranged]
  by_cases wide : 128 < (listing c.op (v / a.floor)).length
  · have inhabited : listing c.op (v / a.floor) ≠ [] := by
      intro none
      rw [none] at wide
      exact absurd wide (by decide)
    simp only [if_pos wide]
    refine ⟨⟨nofun, fun none => absurd none inhabited⟩, fun reason => ?_, nofun, value, quotient,
      next⟩
    rw [Except.error.injEq, eq_comm]
    exact (and_iff_right wide).symm
  · simp only [if_neg wide]
    by_cases empty : listing c.op (v / a.floor) = []
    · simp only [if_pos empty]
      refine ⟨iff_of_true trivial empty, fun reason => ?_, nofun, value, quotient, next⟩
      exact iff_of_false nofun fun refused => wide refused.1
    · simp only [if_neg empty]
      refine ⟨iff_of_false nofun empty, fun reason => ?_, ?_, value, quotient, next⟩
      · exact iff_of_false nofun fun refused => wide refused.1
      · rintro constraint expanded
        obtain rfl := Option.some.inj (Except.ok.inj expanded)
        exact ⟨rfl, listing_increasing _ _, fun p => Iff.rfl, listing_fits quotient,
          Nat.not_lt.mp wide⟩

-- The greatest integer as an inclusive bound: the number of partitions is no integer any more.
theorem greatest_bound_refused :
    Fits maxInteger ∧
      expand ⟨⟨some "tbl", "fid"⟩, .le, .integer maxInteger⟩ ⟨1, "fid", "part", 1⟩ "tbl2" =
        .error (.rangeTooLarge "tbl.fid" maxInteger 128) ∧
      128 < (selected .le 1 maxInteger).ncard := by
  have fits : Fits maxInteger := by decide
  have refused : expand ⟨⟨some "tbl", "fid"⟩, .le, .integer maxInteger⟩ ⟨1, "fid", "part", 1⟩
      "tbl2" = .error (.rangeTooLarge "tbl.fid" maxInteger 128) := rfl
  obtain ⟨-, errors, -⟩ := expand_exact ⟨⟨some "tbl", "fid"⟩, .le, .integer maxInteger⟩
    ⟨1, "fid", "part", 1⟩ "tbl2" maxInteger rfl fits (by decide) (.inr (.inl rfl))
  exact ⟨fits, refused, ((errors _).mp refused).1⟩

end TripleTable.Partition
