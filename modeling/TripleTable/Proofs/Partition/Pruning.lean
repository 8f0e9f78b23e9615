import TripleTable.Proofs.Partition.Expansion
set_option autoImplicit false

/-!
Which rows a partition constraint keeps. An equality and an inclusive bound keep every row that
satisfies them; a strict bound gives up the rows that share a partition with the bound itself.
-/
namespace TripleTable.Partition
open Sql (ComparisonOp)
open Shape (Comparison)

-- The bound is floored to the partition it lies in and that partition is kept only where the
-- bound may be reached. The rows given up for a strict bound share its partition, and there
-- are none if the bound begins one.
theorem constraint_keeps_matching_rows (c : Comparison) (a : Attribute) (qualifier : Text)
    (v x : Int) (constraint : Constraint) (right : c.right = .integer v)
    (expanded : expand c a qualifier = .ok (some constraint)) (nonneg : 0 ≤ x)
    (matching : c.op.Holds x v) :
    (x / a.floor ∈ constraint.partitions ↔ ¬ (c.op = .lt ∧ x / a.floor = v / a.floor)) ∧
      (a.floor ∣ v → x / a.floor ∈ constraint.partitions) := by
  obtain ⟨positive, listed⟩ := expand_integer right expanded
  have lower : 0 ≤ x / a.floor := Int.ediv_nonneg nonneg (Int.le_of_lt positive)
  have kept : x / a.floor ∈ constraint.partitions ↔
      ¬ (c.op = .lt ∧ x / a.floor = v / a.floor) := by
    rw [partitions_members listed]
    rcases partitions_operator listed with op | op | op
    · have same : x = v := by simpa [op, ComparisonOp.Holds] using matching
      simp [op, same]
    · have less : x < v := by simpa [op, ComparisonOp.Holds] using matching
      have upper := Int.ediv_le_ediv positive (Int.le_of_lt less)
      simp only [op, true_and, reduceCtorEq, false_and, false_or, or_false]
      omega
    · have atMost : x ≤ v := by simpa [op, ComparisonOp.Holds] using matching
      have upper := Int.ediv_le_ediv positive atMost
      simp [op, lower, upper]
  refine ⟨kept, fun divides => kept.mpr ?_⟩
  rintro ⟨op, same⟩
  have less : x < v := by simpa [op, ComparisonOp.Holds] using matching
  have strict : x / a.floor < v / a.floor := by
    apply Int.ediv_lt_of_lt_mul positive
    rwa [Int.ediv_mul_cancel divides]
  omega

theorem strict_bound_keeps_partition_below :
    expand ⟨⟨some "tbl", "fid"⟩, .lt, .integer 99999⟩ ⟨1, "fid", "fid", 20000⟩ "tbl2" =
        .ok (some ⟨"tbl2.fid", [0, 1, 2, 3]⟩) ∧
      ComparisonOp.lt.Holds 79999 99999 ∧ (79999 / 20000 : Int) ∈ [0, 1, 2, 3] := by
  have expanded : expand ⟨⟨some "tbl", "fid"⟩, .lt, .integer 99999⟩ ⟨1, "fid", "fid", 20000⟩ "tbl2" =
      .ok (some ⟨"tbl2.fid", [0, 1, 2, 3]⟩) := rfl
  have matching : ComparisonOp.lt.Holds 79999 99999 := by simp [ComparisonOp.Holds]
  have kept := constraint_keeps_matching_rows _ _ _ 99999 79999 _ rfl expanded (by decide) matching
  exact ⟨expanded, matching, kept.1.mpr (by decide)⟩

theorem strict_bound_gives_up_its_partition :
    ¬ ∀ (c : Comparison) (a : Attribute) (qualifier : Text) (v x : Int) (constraint : Constraint),
      c.right = .integer v → 0 < a.floor → expand c a qualifier = .ok (some constraint) →
      0 ≤ x → c.op.Holds x v → x / a.floor ∈ constraint.partitions := by
  intro keeps
  have kept := keeps ⟨⟨some "tbl", "fid"⟩, .lt, .integer 99999⟩ ⟨1, "fid", "fid", 20000⟩ "tbl2"
    99999 99998 ⟨"tbl2.fid", [0, 1, 2, 3]⟩ rfl (by decide) rfl (by decide)
    (by simp [ComparisonOp.Holds])
  exact absurd kept (by decide)

end TripleTable.Partition
