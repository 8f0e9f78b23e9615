import TripleTable.Partition.Expansion
set_option autoImplicit false

/-!
The partition numbers that an expansion yields.
-/
namespace TripleTable.Partition
open Shape (Comparison)

theorem below_limit {column : Text} {bound : Int} {numbers : List Int}
    (computed : below column bound = .ok numbers) : bound ≤ maxPartitions := by
  unfold below at computed
  split at computed
  · cases computed
  · omega

theorem below_members {column : Text} {bound : Int} {numbers : List Int}
    (computed : below column bound = .ok numbers) (p : Int) :
    p ∈ numbers ↔ 0 ≤ p ∧ p < bound := by
  unfold below at computed
  split at computed
  · cases computed
  · obtain rfl := Except.ok.inj computed
    constructor
    · intro member
      obtain ⟨n, inRange, rfl⟩ := List.mem_map.mp member
      have small := List.mem_range.mp inRange
      have cast : Int.ofNat n = (n : Int) := rfl
      omega
    · intro bounds
      refine List.mem_map.mpr ⟨p.toNat, List.mem_range.mpr ?_, ?_⟩
      · omega
      · exact Int.toNat_of_nonneg bounds.1

theorem below_count {column : Text} {bound : Int} {numbers : List Int}
    (computed : below column bound = .ok numbers) : numbers.length ≤ 128 := by
  have limit := below_limit computed
  unfold below at computed
  split at computed
  · cases computed
  · obtain rfl := Except.ok.inj computed
    rw [List.length_map, List.length_range]
    unfold maxPartitions at limit
    omega

theorem expand_partitions {c : Comparison} {a : Attribute} {qualifier : Text}
    {constraint : Constraint} (expanded : expand c a qualifier = .ok (some constraint)) :
    0 < a.floor ∧ constraint.partitions ≠ [] ∧ ∃ k, partitionOf? a.floor c.right = some k ∧
      partitions c k = .ok constraint.partitions := by
  unfold expand at expanded
  split at expanded
  · cases expanded
  · rename_i positive
    cases value : partitionOf? a.floor c.right with
    | none => simp [value] at expanded
    | some k =>
      cases listed : partitions c k with
      | error reason => simp [value, listed, bind, Except.bind] at expanded
      | ok numbers =>
        cases numbers with
        | nil => simp [value, listed, bind, Except.bind, pure, Except.pure] at expanded
        | cons first rest =>
          simp only [value, listed, bind, Except.bind, pure, Except.pure, Except.ok.injEq,
            Option.some.injEq] at expanded
          rw [← expanded]
          exact ⟨by omega, by simp, k, rfl, listed⟩

theorem expand_column {c : Comparison} {a : Attribute} {qualifier : Text} {constraint : Constraint}
    (expanded : expand c a qualifier = .ok (some constraint)) :
    constraint.column = qualifier ++ "." ++ a.targetColumn := by
  unfold expand at expanded
  split at expanded
  · cases expanded
  · cases value : partitionOf? a.floor c.right with
    | none => simp [value] at expanded
    | some k =>
      cases listed : partitions c k with
      | error reason => simp [value, listed, bind, Except.bind] at expanded
      | ok numbers =>
        cases numbers with
        | nil => simp [value, listed, bind, Except.bind, pure, Except.pure] at expanded
        | cons first rest =>
          simp only [value, listed, bind, Except.bind, pure, Except.pure, Except.ok.injEq,
            Option.some.injEq] at expanded
          rw [← expanded]

theorem expand_integer {c : Comparison} {a : Attribute} {qualifier : Text} {v : Int}
    {constraint : Constraint} (right : c.right = .integer v)
    (expanded : expand c a qualifier = .ok (some constraint)) :
    0 < a.floor ∧ partitions c (v / a.floor) = .ok constraint.partitions := by
  obtain ⟨positive, -, k, value, listed⟩ := expand_partitions expanded
  rw [right] at value
  obtain rfl := Option.some.inj value
  exact ⟨positive, listed⟩

theorem partitions_members {c : Comparison} {k p : Int} {numbers : List Int}
    (listed : partitions c k = .ok numbers) :
    p ∈ numbers ↔ (c.op = .eq ∧ p = k) ∨ (c.op = .lt ∧ 0 ≤ p ∧ p < k) ∨
      (c.op = .le ∧ 0 ≤ p ∧ p ≤ k) := by
  unfold partitions at listed
  split at listed
  · rename_i op
    obtain rfl := Except.ok.inj listed
    simp [op]
  · rename_i op
    simp [op, below_members listed p]
  · rename_i op
    have limit := below_limit listed
    simp only [op, below_members listed p, maxPartitions, maxInteger] at limit ⊢
    simp
    omega
  · cases listed

theorem partitions_operator {c : Comparison} {k : Int} {numbers : List Int}
    (listed : partitions c k = .ok numbers) : c.op = .eq ∨ c.op = .lt ∨ c.op = .le := by
  cases op : c.op <;> simp [partitions, op] at listed ⊢

theorem partitions_bounded {c : Comparison} {k : Int} {numbers : List Int}
    (listed : partitions c k = .ok numbers) :
    numbers = [k] ∨ ∀ p ∈ numbers, 0 ≤ p ∧ p < maxPartitions := by
  have of_below : ∀ bound, below c.left.text bound = .ok numbers →
      ∀ p ∈ numbers, 0 ≤ p ∧ p < maxPartitions := by
    intro bound computed p member
    have limit := below_limit computed
    have bounds := (below_members computed p).mp member
    omega
  unfold partitions at listed
  split at listed
  · exact .inl (Except.ok.inj listed).symm
  · exact .inr (of_below _ listed)
  · exact .inr (of_below _ listed)
  · cases listed

theorem partitions_count {c : Comparison} {k : Int} {numbers : List Int}
    (listed : partitions c k = .ok numbers) : numbers.length ≤ 128 := by
  unfold partitions at listed
  split at listed
  · obtain rfl := Except.ok.inj listed
    rw [List.length_singleton]
    decide
  · exact below_count listed
  · exact below_count listed
  · cases listed

end TripleTable.Partition
