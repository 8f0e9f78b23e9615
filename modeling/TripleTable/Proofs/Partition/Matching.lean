import TripleTable.Partition.Rewrite
import TripleTable.Proofs.Sql.Renaming
set_option autoImplicit false

/-!
Which mapping a table is matched with, and which attribute its column.
-/
namespace TripleTable.Partition
open Shape (Comparison)

theorem matched_step (tables : List Text) (mappings : List TableMapping) (key : Text)
    (matched : NameTable TableMapping) :
    (mappings.foldl (fun matched m =>
        if m.origin ∈ tables then matched.insertNew m.origin m else matched) matched).find? key =
      (matched.find? key).or
        (if key ∈ tables then mappings.find? fun m => m.origin = key else none) := by
  induction mappings generalizing matched with
  | nil => simp
  | cons m rest ih =>
    rw [List.foldl_cons, ih]
    by_cases named : m.origin ∈ tables
    · rw [if_pos named, NameTable.find_insert_new]
      by_cases same : m.origin = key
      · subst same
        cases matched.find? m.origin <;> simp [named]
      · simp [same]
    · rw [if_neg named]
      by_cases same : m.origin = key
      · subst same
        simp [named]
      · simp [same]

theorem matched_find (tables : List Text) (mappings : List TableMapping) (key : Text) :
    (matchedMappings tables mappings).find? key =
      if key ∈ tables then mappings.find? fun m => m.origin = key else none :=
  matched_step tables mappings key []

theorem matched_member {tables : List Text} {mappings : List TableMapping} {key : Text}
    {m : TableMapping} (found : (matchedMappings tables mappings).find? key = some m) :
    m ∈ mappings := by
  rw [matched_find] at found
  split at found
  · exact List.mem_of_find?_eq_some found
  · cases found

theorem matched_increasing (tables : List Text) (mappings : List TableMapping) :
    (matchedMappings tables mappings).Increasing := by
  have kept : ∀ matched : NameTable TableMapping, matched.Increasing →
      NameTable.Increasing (mappings.foldl (fun matched m =>
        if m.origin ∈ tables then matched.insertNew m.origin m else matched) matched) := by
    induction mappings with
    | nil => exact fun _ increasing => increasing
    | cons m rest ih =>
      intro matched increasing
      rw [List.foldl_cons]
      refine ih _ ?_
      split
      · exact NameTable.insert_new_increasing increasing m.origin m
      · exact increasing
  exact kept [] .nil

theorem matched_row {tables : List Text} {mappings : List TableMapping} {key : Text}
    {m : TableMapping} :
    (key, m) ∈ matchedMappings tables mappings ↔
      key ∈ tables ∧ mappings.find? (fun m => m.origin = key) = some m := by
  rw [NameTable.mem_find (matched_increasing tables mappings), matched_find]
  by_cases table : key ∈ tables <;> simp [table]

theorem matched_origin {tables : List Text} {mappings : List TableMapping} {key : Text}
    {m : TableMapping} (row : (key, m) ∈ matchedMappings tables mappings) : m.origin = key := by
  simpa using List.find?_some (matched_row.mp row).2

theorem matched_none {tables : List Text} {mappings : List TableMapping}
    (apart : ∀ m ∈ mappings, m.origin ∉ tables) : matchedMappings tables mappings = [] := by
  unfold matchedMappings
  induction mappings with
  | nil => rfl
  | cons m rest ih =>
    obtain ⟨here, there⟩ := List.forall_mem_cons.mp apart
    rw [List.foldl_cons, if_neg here]
    exact ih there

theorem matched_some {tables : List Text} {mappings : List TableMapping}
    (inhabited : matchedMappings tables mappings ≠ []) :
    ∃ key ∈ tables, ∃ m ∈ mappings, (matchedMappings tables mappings).find? key = some m := by
  by_cases named : ∃ m ∈ mappings, m.origin ∈ tables
  · obtain ⟨m, member, origin⟩ := named
    have found : (mappings.find? fun n => n.origin = m.origin).isSome :=
      List.find?_isSome.mpr ⟨m, member, by simp⟩
    obtain ⟨first, first_found⟩ := Option.isSome_iff_exists.mp found
    refine ⟨m.origin, origin, first, List.mem_of_find?_eq_some first_found, ?_⟩
    rw [matched_find, if_pos origin, first_found]
  · exact absurd (matched_none fun m member origin => named ⟨m, member, origin⟩) inhabited

theorem matched_empty {tables : List Text} {mappings : List TableMapping} :
    matchedMappings tables mappings = [] ↔ ∀ m ∈ mappings, m.origin ∉ tables := by
  constructor
  · intro unmatched m member table
    have found := matched_find tables mappings m.origin
    rw [unmatched, if_pos table] at found
    have absent := List.find?_eq_none.mp found.symm m member
    simp at absent
  · exact matched_none

-- Rows of one table are equal in the order of the attributes, so sorting leaves their sequence.
theorem sorted_attributes (metadata : Metadata) {ids : List Int} {id : Int} (listed : id ∈ ids)
    (column : Text) :
    ((metadata.attributesOf ids).filter fun a => a.tableId = id ∧ a.originColumn = column) =
      metadata.attributes.filter fun a => a.tableId = id ∧ a.originColumn = column := by
  let wanted : Attribute → Bool := fun a => a.tableId = id ∧ a.originColumn = column
  let taken := metadata.attributes.filter fun a => ids.contains a.tableId
  have all_taken : taken.filter wanted = metadata.attributes.filter wanted := by
    rw [List.filter_filter]
    refine List.filter_congr fun a _ => ?_
    by_cases own : a.tableId = id
    · simp [wanted, own, listed]
    · simp [wanted, own]
  have own : ∀ a ∈ taken.filter wanted, a.tableId = id := by
    intro a member
    have holds := (List.mem_filter.mp member).2
    simp only [wanted, decide_eq_true_eq] at holds
    exact holds.1
  have ordered : (taken.filter wanted).Pairwise fun a b => decide (a.tableId ≤ b.tableId) = true := by
    refine List.pairwise_iff_forall_sublist.mpr fun {a b} pair => ?_
    rw [own a (pair.subset (by simp)), own b (pair.subset (by simp))]
    simp
  have within : (taken.filter wanted).Sublist ((metadata.attributesOf ids).filter wanted) := by
    have kept := List.sublist_mergeSort (by simpa using fun a b c => Int.le_trans)
      (by simpa using fun a b => Int.le_total _ _) ordered List.filter_sublist
    simpa [List.filter_filter, Metadata.attributesOf, taken] using kept.filter wanted
  have sorted : ((metadata.attributesOf ids).filter wanted).Perm (taken.filter wanted) :=
    (List.mergeSort_perm taken _).filter wanted
  rw [← all_taken]
  exact (within.eq_of_length sorted.length_eq.symm).symm

theorem attribute_find (metadata : Metadata) {ids : List Int} {id : Int} (listed : id ∈ ids)
    (column : Text) :
    ((metadata.attributesOf ids).find? fun a => a.tableId = id ∧ a.originColumn = column) =
      metadata.attributes.find? fun a => a.tableId = id ∧ a.originColumn = column := by
  rw [← List.head?_filter, sorted_attributes metadata listed, List.head?_filter]

section
variable {metadata : Metadata} {shape : Shape} {c : Comparison}
  {finding : Except ExpansionError (Option Constraint)}

theorem constrain_found {matched : NameTable TableMapping} {attributes : List Attribute}
    (constrained : constrain? shape matched attributes c = some finding) :
    ∃ table mapping, shape.owner? c.left = some table ∧ matched.find? table = some mapping ∧
      ∃ a ∈ attributes,
        expand c a ((shape.aliasOf? c.left table).getD mapping.target) = finding := by
  unfold constrain? at constrained
  obtain ⟨table, owned, constrained⟩ := Option.bind_eq_some_iff.mp constrained
  obtain ⟨mapping, found, constrained⟩ := Option.bind_eq_some_iff.mp constrained
  obtain ⟨a, chosen, constrained⟩ := Option.bind_eq_some_iff.mp constrained
  exact ⟨table, mapping, owned, found, a, List.mem_of_find?_eq_some chosen,
    Option.some.inj constrained⟩

theorem finding_found (member : (c, finding) ∈ findings metadata shape) :
    ∃ table mapping, shape.owner? c.left = some table ∧
      (matchedMappings shape.tables metadata.mappings).find? table = some mapping ∧
      ∃ a ∈ metadata.attributes,
        expand c a ((shape.aliasOf? c.left table).getD mapping.target) = finding := by
  obtain ⟨source, -, paired⟩ := List.mem_filterMap.mp member
  obtain ⟨found, constrained, pair⟩ := Option.map_eq_some_iff.mp paired
  obtain ⟨rfl, rfl⟩ := Prod.mk.inj pair
  obtain ⟨table, mapping, owned, matched, a, listed, expanded⟩ := constrain_found constrained
  refine ⟨table, mapping, owned, matched, a, ?_, expanded⟩
  exact (List.mem_filter.mp (List.mem_mergeSort.mp listed)).1

theorem constraint_finding {constraint : Constraint}
    (member : constraint ∈ constraintsOf metadata shape) :
    ∃ comparison, (comparison, .ok (some constraint)) ∈ findings metadata shape := by
  obtain ⟨⟨comparison, finding⟩, among, yields⟩ := List.mem_filterMap.mp member
  cases finding with
  | error reason => cases yields
  | ok made =>
    obtain rfl : made = some constraint := yields
    exact ⟨comparison, among⟩

end

theorem renaming_key (metadata : Metadata) (shape : Shape) (key : Text) :
    (renamingOf metadata shape).relationKey key =
      (((matchedMappings shape.tables metadata.mappings).find? key).map
        TableMapping.target).getD key := by
  rw [Sql.Renaming.relationKey, renamingOf]
  exact congrArg (Option.getD · key) (NameTable.find_map _ TableMapping.target key)

-- Where no target is an origin, no table of the rewritten query is an origin.
theorem renamed_not_origin {metadata : Metadata} {shape : Shape} {key : Text}
    (apart : ∀ m ∈ metadata.mappings, ∀ n ∈ metadata.mappings, m.target ≠ n.origin)
    (table : key ∈ shape.tables) :
    ∀ m ∈ metadata.mappings, m.origin ≠ (renamingOf metadata shape).relationKey key := by
  intro n member same
  rw [renaming_key, matched_find, if_pos table] at same
  cases found : metadata.mappings.find? fun m => m.origin = key with
  | none =>
    rw [found] at same
    exact absurd same (by simpa using List.find?_eq_none.mp found n member)
  | some m =>
    rw [found] at same
    exact apart m (List.mem_of_find?_eq_some found) n member same.symm

end TripleTable.Partition
