import TripleTable.Text.Table
set_option autoImplicit false

/-!
What sets and tables of names hold after an insertion, that a table is known by its look-ups, that
joining undoes splitting, and that it puts its mark in front of each piece but the first.
-/
namespace TripleTable

theorem mem_insert_name (name other : Text) (names : List Text) :
    other ∈ insertName name names ↔ other = name ∨ other ∈ names := by
  induction names with
  | nil => simp [insertName]
  | cons first rest ih =>
    by_cases less : name < first
    · simp [insertName, less]
    · by_cases same : name = first
      · subst same
        rw [insertName, if_neg less, if_pos rfl]
        simp
      · simp only [insertName, less, same, if_false, List.mem_cons, ih]
        exact or_left_comm

theorem insert_name_increasing (name : Text) {names : List Text}
    (increasing : names.Pairwise (· < ·)) : (insertName name names).Pairwise (· < ·) := by
  induction names with
  | nil => simp [insertName]
  | cons first rest ih =>
    obtain ⟨above, later⟩ := List.pairwise_cons.mp increasing
    by_cases less : name < first
    · rw [insertName, if_pos less]
      refine List.pairwise_cons.mpr ⟨fun other member => ?_, increasing⟩
      rcases List.mem_cons.mp member with rfl | member
      · exact less
      · exact List.lt_trans less (above other member)
    · by_cases same : name = first
      · rw [insertName, if_neg less, if_pos same]
        exact increasing
      · rw [insertName, if_neg less, if_neg same]
        refine List.pairwise_cons.mpr ⟨fun other member => ?_, ih later⟩
        rcases (mem_insert_name name other rest).mp member with rfl | member
        · by_cases greater : first < other
          · exact greater
          · exact absurd (List.le_antisymm greater less) same
        · exact above other member

namespace NameTable
variable {α β : Type}

theorem find_cons (row : Text × α) (rest : NameTable α) (name : Text) :
    find? (row :: rest) name = if row.1 = name then some row.2 else find? rest name := by
  by_cases same : row.1 = name <;> simp [find?, same]

theorem contains_find (table : NameTable α) (name : Text) :
    table.contains name = (table.find? name).isSome := by
  induction table with
  | nil => rfl
  | cons row rest ih =>
    rw [find_cons]
    by_cases same : row.1 = name
    · simp [contains, same]
    · simp only [contains] at ih
      simp [contains, same, ih]

theorem find_insert (table : NameTable α) (name other : Text) (value : α) :
    (table.insert name value).find? other =
      if name = other then some value else table.find? other := by
  induction table with
  | nil => simp [insert, find_cons]
  | cons row rest ih =>
    by_cases less : name < row.1
    · simp [insert, less, find_cons]
    · by_cases same : name = row.1
      · simp only [insert, if_neg less, if_pos same, find_cons]
        by_cases hit : name = other <;> simp [hit, ← same]
      · simp only [insert, if_neg less, if_neg same, find_cons, ih]
        by_cases hit : row.1 = other
        · have missed : name ≠ other := fun eq => same (eq.trans hit.symm)
          simp [hit, missed]
        · simp [hit]

theorem find_insert_new (table : NameTable α) (name other : Text) (value : α) :
    (table.insertNew name value).find? other =
      (table.find? other).or (if name = other then some value else none) := by
  unfold insertNew
  rw [contains_find]
  cases found : table.find? name with
  | some old =>
    by_cases hit : name = other
    · subst hit
      simp [found]
    · simp [hit]
  | none =>
    by_cases hit : name = other
    · subst hit
      simp [find_insert, found]
    · simp [find_insert, hit]

theorem find_map (table : NameTable α) (f : α → β) (name : Text) :
    find? (List.map (fun row => (row.1, f row.2)) table) name = (table.find? name).map f := by
  induction table with
  | nil => rfl
  | cons row rest ih =>
    rw [List.map_cons, find_cons, find_cons, ih]
    by_cases same : row.1 = name <;> simp [same]

theorem insert_map (table : NameTable α) (f : α → β) (name : Text) (value : α) :
    insert (List.map (fun row => (row.1, f row.2)) table) name (f value) =
      List.map (fun row => (row.1, f row.2)) (table.insert name value) := by
  induction table with
  | nil => rfl
  | cons row rest ih =>
    rw [List.map_cons, insert, insert]
    by_cases less : name < row.1
    · rw [if_pos less, if_pos less]
      rfl
    · by_cases same : name = row.1
      · rw [if_neg less, if_neg less, if_pos same, if_pos same]
        rfl
      · rw [if_neg less, if_neg less, if_neg same, if_neg same, List.map_cons, ih]

-- The order in which a table keeps its rows.
def Increasing (table : NameTable α) : Prop := (List.map Prod.fst table).Pairwise (· < ·)

theorem insert_keys (table : NameTable α) (name : Text) (value : α) :
    List.map Prod.fst (table.insert name value) = insertName name (List.map Prod.fst table) := by
  induction table with
  | nil => rfl
  | cons row rest ih =>
    rw [List.map_cons, insert, insertName]
    by_cases less : name < row.1
    · rw [if_pos less, if_pos less]
      rfl
    · by_cases same : name = row.1
      · rw [if_neg less, if_neg less, if_pos same, if_pos same, same]
        rfl
      · rw [if_neg less, if_neg less, if_neg same, if_neg same, List.map_cons, ih]

theorem insert_new_increasing {table : NameTable α} (increasing : Increasing table) (name : Text)
    (value : α) : Increasing (table.insertNew name value) := by
  unfold insertNew
  split
  · exact increasing
  · rw [Increasing, insert_keys]
    exact insert_name_increasing name increasing

theorem mem_find {table : NameTable α} (increasing : Increasing table) (name : Text) (value : α) :
    (name, value) ∈ table ↔ table.find? name = some value := by
  induction table with
  | nil => simp [find?]
  | cons row rest ih =>
    obtain ⟨above, later⟩ := List.pairwise_cons.mp increasing
    rw [find_cons, List.mem_cons, ih later]
    by_cases same : row.1 = name
    · -- The keys behind are greater, so the name is not found again.
      have alone : find? rest name ≠ some value := by
        intro again
        have greater := above name (List.mem_map.mpr ⟨_, (ih later).mpr again, rfl⟩)
        rw [same] at greater
        exact List.lt_irrefl name greater
      obtain ⟨key, held⟩ := row
      obtain rfl : key = name := same
      simp [alone, eq_comm]
    · have other : (name, value) ≠ row := fun here => same (by rw [← here])
      simp [same, other]

theorem increasing_ext {table other : NameTable α} (increasing : Increasing table)
    (increasing_other : Increasing other)
    (same : ∀ name, table.find? name = other.find? name) : table = other := by
  have nodup : ∀ {rows : NameTable α}, Increasing rows → List.Nodup rows := by
    intro rows sorted
    refine List.Pairwise.imp (fun less same => ?_) (List.pairwise_map.mp sorted)
    rw [same] at less
    exact List.lt_irrefl _ less
  have members : table.Perm other := by
    refine (List.perm_ext_iff_of_nodup (nodup increasing) (nodup increasing_other)).mpr fun row => ?_
    obtain ⟨name, value⟩ := row
    rw [mem_find increasing, mem_find increasing_other, same]
  refine List.Perm.eq_of_pairwise (fun _ _ _ _ less greater => ?_)
    (List.pairwise_map.mp increasing) (List.pairwise_map.mp increasing_other) members
  exact absurd (List.lt_trans less greater) (List.lt_irrefl _)

end NameTable

namespace Text

-- Splitting is that of the library, which knows what joining makes of the pieces.
theorem split_library (p : Char → Bool) (s : Text) : splitOn p s = List.splitOnP p s := by
  induction s with
  | nil => rfl
  | cons c s ih =>
    have pieces := splitOn_ne_nil p s
    rw [List.splitOnP_cons_eq_if_modifyHead, splitOn, ih] at *
    by_cases separator : p c
    · simp [separator]
    · cases split : List.splitOnP p s with
      | nil => exact absurd split pieces
      | cons piece rest => simp [separator]

theorem join_split (c : Char) (s : Text) : join [c] (splitOn (· == c) s) = s := by
  rw [split_library, ← List.splitOn_eq_splitOnP, join, List.intercalate_splitOn]

theorem split_plain {column : Text} (plain : '.' ∉ column) :
    splitOn (· == '.') column = [column] := by
  induction column with
  | nil => rfl
  | cons c rest ih =>
    obtain ⟨other, more⟩ := not_or.mp (mt List.mem_cons.mpr plain)
    have apart : (c == '.') = false := by simpa using Ne.symm other
    rw [splitOn, apart, ih more]
    rfl

theorem split_qualified (qualifier : Text) {column : Text} (plain : '.' ∉ column) :
    splitOn (· == '.') (qualifier ++ "." ++ column) =
      splitOn (· == '.') qualifier ++ [column] := by
  induction qualifier with
  | nil => exact congrArg ([] :: ·) (split_plain plain)
  | cons c rest ih =>
    simp only [List.cons_append, splitOn] at ih ⊢
    rw [ih]
    by_cases separator : (c == '.') = true
    · rw [if_pos separator, if_pos separator]
      rfl
    · rw [if_neg separator, if_neg separator]
      cases pieces : splitOn (· == '.') rest with
      | nil => exact absurd pieces (splitOn_ne_nil _ _)
      | cons piece more => rfl

end Text

theorem intercalate_flat {α : Type} (mark first : List α) (more : List (List α)) :
    mark.intercalate (first :: more) = first ++ more.flatMap (mark ++ ·) := by
  induction more generalizing first with
  | nil => simp
  | cons second more ih =>
    rw [List.intercalate_cons_cons, ih, List.flatMap_cons, List.append_assoc, List.append_assoc]

end TripleTable
