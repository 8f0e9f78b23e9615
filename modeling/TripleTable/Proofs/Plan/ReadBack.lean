import Mathlib.Data.List.Nodup
import Mathlib.Data.List.Range
import TripleTable.Proofs.Plan.Answers
import TripleTable.Proofs.Plan.Lexing
import TripleTable.Proofs.Shape.PlainSelect
import TripleTable.Proofs.Sql.Blocks
set_option autoImplicit false

/-!
A rendered plan read back: its text is accepted as one statement, and the walk of that statement
shows the plan.
-/
namespace TripleTable.Plan
open Pattern (Triple)
open Sql

theorem capitals_digit {c : Char} (digit : c.isDigit) : capitals c = [c] := by
  have bounds := digit_bounds digit
  have low : ¬ 'a'.val ≤ c.val := by
    rw [UInt32.le_iff_toNat_le]
    have value : c.val.toNat = c.toNat := rfl
    have letter : 'a'.val.toNat = 97 := rfl
    omega
  have upper : c.toUpper = c := dif_neg fun both => low both.1
  unfold capitals
  split <;> first | omega | rw [upper]

theorem alias_numbered (index : Nat) : numbered (Ident.keyword ⟨aliasName index, none⟩) := by
  have digits := fun c => Text.of_nat_digit (n := index) (c := c)
  have inhabited := Text.of_nat_inhabited index
  have keyword : Ident.keyword ⟨aliasName index, none⟩ =
      String.ofList ('T' :: (Text.ofNat index).flatMap capitals) := rfl
  rw [numbered, keyword, String.toList_ofList]
  cases number : Text.ofNat index with
  | nil => exact absurd number inhabited
  | cons c more =>
    have digit : c.isDigit := digits c (by simp [number])
    simp [capitals_digit digit, digit]

theorem alias_injective {left right : Nat} (same : aliasName left = aliasName right) :
    left = right := by
  have digits : Text.ofNat left = Text.ofNat right := (List.cons.inj same).2
  have values := congrArg Text.toNat? digits
  simpa [Text.to_nat_of_nat] using values

theorem sound_free {name : Text} (sound : SoundName name) :
    ∀ first ∈ (Name.ofKey name).head?, isFree first.keyword := by
  intro first head
  rw [Name.ofKey, List.head?_map] at head
  obtain ⟨part, first_part, rfl⟩ := Option.map_eq_some_iff.mp head
  exact sound.2 part first_part

namespace SelectPlan
variable {p : SelectPlan}

theorem plain_named (readable : p.Readable) : p.plain.Named := by
  have equality : ∀ c : Condition, c.equality.Numbered := fun c =>
    ⟨alias_numbered c.left.index, alias_numbered c.right.index⟩
  constructor
  · simpa [plain] using readable.items
  · intro side member
    obtain ⟨item, -, rfl⟩ := List.mem_map.mp member
    exact alias_numbered item.column.index
  · exact ⟨sound_free readable.first, alias_numbered p.source.index⟩
  · intro j member
    obtain ⟨join, here, rfl⟩ := List.mem_map.mp member
    exact ⟨sound_free (readable.sound join here), alias_numbered join.source.index⟩
  · intro j member
    obtain ⟨join, here, rfl⟩ := List.mem_map.mp member
    simpa [Join.plain] using readable.placed join here
  · intro j member e within
    obtain ⟨join, here, rfl⟩ := List.mem_map.mp member
    obtain ⟨c, -, rfl⟩ := List.mem_map.mp within
    exact equality c
  · intro e member
    obtain ⟨f, -, rfl⟩ := List.mem_map.mp member
    cases f with
    | columns c => exact equality c
    | constant f => exact ⟨alias_numbered f.column.index, trivial⟩

theorem parse_written (printed : Bool) (readable : p.Readable) :
    Partition.parseStatement (p.written printed) = .ok (.query p.plain.query) :=
  parse_plain_select (plain_named readable) (lexes_written printed readable)

theorem parse_text (readable : p.Readable) :
    Partition.parseStatement p.text = .ok (.query p.plain.query) := by
  rw [← rendered_written]
  exact parse_written false readable

theorem plain_tables (p : SelectPlan) : p.plain.tables = p.tables.map NumberedTable.plain := by
  rw [PlainSelect.tables, tables, plain, List.map_cons, List.map_map, List.map_map]
  rfl

end SelectPlan

def Filter.comparison : Filter → Shape.Comparison
  | columns c =>
    ⟨⟨some (aliasName c.left.index), [c.left.role.letter]⟩, .eq, .identifier c.right.text⟩
  | constant f =>
    ⟨⟨some (aliasName f.column.index), [f.column.role.letter]⟩, .eq, .string f.literal⟩

theorem filter_comparison (f : Filter) : f.equality.comparison = f.comparison := by
  cases f <;> rfl

-- Conditions among the columns of the anchor table have no join to stand in; they are asked of
-- the rows first, and then the constants.
def JoinPlan.selection (p : JoinPlan) : List Filter :=
  (p.entries.head?.toList.flatMap Entry.extra).map .columns ++ p.filters.map .constant

structure JoinPlan.Shows (p : JoinPlan) (items : List ProjectionItem) (shape : Shape) : Prop where
  projection : shape.projection = items.map fun item => item.column.text
  increasing : shape.tables.Pairwise (· < ·)
  tables : ∀ name, name ∈ shape.tables ↔ name ∈ p.entries.map Entry.table
  aliases : ∀ short name, shape.aliases.find? short = some name ↔
    ∃ k entry, p.entries[k]? = some entry ∧ short = aliasName (k + 1) ∧ name = entry.table
  predicates : shape.predicates = p.selection.map Filter.comparison

theorem column_text (c : Column) : c.side.expr.text = c.text := by
  have text : c.side.expr.text =
      Name.text [⟨aliasName c.index, none⟩, ⟨[c.role.letter], none⟩] := rfl
  rw [text, name_text]
  rfl

namespace SelectPlan

-- What the walk of a plan's statement shows: its items, its tables under t1, t2 and so on, and
-- its filters.
structure Shows (p : SelectPlan) (shape : Shape) : Prop where
  projection : shape.projection = p.items.map fun item => item.column.text
  increasing : shape.tables.Pairwise (· < ·)
  tables : ∀ name, name ∈ shape.tables ↔ name ∈ p.tables.map NumberedTable.table
  aliases : ∀ short name, shape.aliases.find? short = some name ↔
    ∃ k t, p.tables[k]? = some t ∧ short = aliasName (k + 1) ∧ name = t.table
  predicates : shape.predicates = p.filters.map Filter.comparison

variable {p : SelectPlan}

theorem plain_shown {shape : Shape} (shows : p.plain.Shows shape)
    (numbered : p.tables.map NumberedTable.index = List.range' 1 p.tables.length) :
    p.Shows shape := by
  have index : ∀ k t, p.tables[k]? = some t → t.index = k + 1 := by
    intro k t at_k
    obtain ⟨inside, rfl⟩ := List.getElem?_eq_some_iff.mp at_k
    have number := congrArg (fun list => list[k]?) numbered
    simpa [List.getElem?_range', inside, Nat.add_comm] using number
  constructor
  · rw [shows.projection, plain, List.map_map]
    exact List.map_congr_left fun item _ => column_text item.column
  · exact shows.increasing
  · intro name
    rw [shows.tables, plain_tables, List.map_map]
    rfl
  · intro short name
    rw [shows.aliases, plain_tables, List.mem_map]
    constructor
    · rintro ⟨t, member, same⟩
      obtain ⟨k, at_k⟩ := List.mem_iff_getElem?.mp member
      have fields := PlainTable.mk.inj same
      rw [index k t at_k] at fields
      exact ⟨k, t, at_k, fields.2.symm, fields.1.symm⟩
    · rintro ⟨k, t, at_k, rfl, rfl⟩
      exact ⟨t, List.mem_of_getElem? at_k, by rw [NumberedTable.plain, index k t at_k]⟩
  · rw [shows.predicates, plain, List.map_map]
    exact List.map_congr_left fun f _ => filter_comparison f

theorem numbered_shape (p : SelectPlan)
    (numbered : p.tables.map NumberedTable.index = List.range' 1 p.tables.length) :
    ∃ shape, Shape.ofQuery p.plain.query = .ok shape ∧ p.Shows shape := by
  have different : (p.plain.tables.map PlainTable.short).Nodup := by
    have shorts : p.plain.tables.map PlainTable.short =
        (p.tables.map NumberedTable.index).map aliasName := by
      rw [plain_tables, List.map_map, List.map_map]
      rfl
    rw [shorts, numbered]
    exact List.Nodup.map (fun _ _ => alias_injective) List.nodup_range'
  obtain ⟨shape, walked, shows⟩ := plain_select_shape p.plain different
  exact ⟨shape, walked, plain_shown shows numbered⟩

-- How a query plan is arranged: its tables in their order, numbered from one, each of the others
-- behind some condition.
structure Arranges (p : SelectPlan) (q : QueryPlan) : Prop where
  distinct : p.distinct = q.distinct
  items : p.items = q.projection
  filters : p.filters = q.joinPlan.selection
  tables : p.tables = q.joinPlan.entries.map fun entry => ⟨entry.table, entry.index⟩
  numbered : p.tables.map NumberedTable.index = List.range' 1 p.tables.length
  ons : p.joins.map Join.on =
    (q.joinPlan.entries.drop 1).map fun entry => entry.join.toList ++ entry.extra
  placed : ∀ j ∈ p.joins, j.on ≠ []

theorem Arranges.readable {q : QueryPlan} (arranged : p.Arranges q) (inhabited : q.projection ≠ [])
    (sound : ∀ t ∈ p.tables, SoundName t.table) : p.Readable := by
  obtain ⟨first, others⟩ := List.forall_mem_cons.mp sound
  exact {
    items := arranged.items ▸ inhabited
    first := first
    sound := fun j member => others j.source (List.mem_map_of_mem member)
    placed := arranged.placed }

end SelectPlan

section
variable {triples : List Triple} {joinPlan : JoinPlan}

-- A pattern is resolved only with a table for each of its triples, so none is left to be named
-- by the text.
theorem resolved_tables (resolved : resolve triples = .ok joinPlan) :
    ∀ t ∈ triples, t.table? = some (tableOf t) := by
  obtain ⟨anchor, rest, -, tables, -⟩ := resolve_accepted resolved
  exact tables

theorem resolved_arranged {q : QueryPlan} (resolved : resolve triples = .ok q.joinPlan)
    (inhabited : q.projection ≠ []) :
    ∃ p, SelectPlan.ofQueryPlan q = .ok p ∧ p.Arranges q := by
  obtain ⟨placed, some_triple, is_placed, -⟩ := resolve_placed resolved
  obtain ⟨root, rest, entries, -, joined⟩ := JoinPlan.placed_root is_placed some_triple
  obtain ⟨p, made, distinct, items, tables, ons, filters⟩ :=
    SelectPlan.of_query_plan inhabited entries joined
  refine ⟨p, made, distinct, items, ?_, tables, ?_, ?_, ?_⟩
  · rw [filters, JoinPlan.selection, entries]
    simp
  · have numbered := is_placed.numbered
    rw [← JoinPlan.placed_length is_placed] at numbered
    rw [tables, List.map_map, List.length_map]
    exact numbered
  · rw [ons, entries]
    rfl
  · have placed_on : ∀ on ∈ p.joins.map Join.on, on ≠ [] := by
      rw [ons]
      intro on member
      obtain ⟨entry, within, rfl⟩ := List.mem_map.mp member
      obtain ⟨condition, join⟩ := Option.isSome_iff_exists.mp (joined entry within)
      simp [join]
    exact fun j member => placed_on j.on (List.mem_map_of_mem member)

theorem arranged_names {Good : Text → Prop} {q : QueryPlan} {p : SelectPlan}
    (arranged : p.Arranges q) (resolved : resolve triples = .ok q.joinPlan)
    (good : ∀ t ∈ triples, ∀ name ∈ t.table?, Good name) : ∀ t ∈ p.tables, Good t.table := by
  obtain ⟨placed, -, is_placed, perm⟩ := resolve_placed resolved
  rw [arranged.tables]
  intro t member
  obtain ⟨entry, within, rfl⟩ := List.mem_map.mp member
  have named : entry.table ∈ q.joinPlan.entries.map Entry.table := List.mem_map_of_mem within
  rw [is_placed.tables] at named
  obtain ⟨source, listed, same⟩ := List.mem_map.mp named
  have triple := perm.mem_iff.mp listed
  exact good source triple entry.table (same ▸ resolved_tables resolved source triple)

theorem resolved_readable (distinct : Bool) {projection : List ProjectionItem}
    (resolved : resolve triples = .ok joinPlan) (inhabited : projection ≠ [])
    (plain : ∀ t ∈ triples, ∀ name ∈ t.table?, PlainName name) :
    ∃ p, SelectPlan.ofQueryPlan ⟨distinct, projection, joinPlan⟩ = .ok p ∧ p.Readable ∧
      p.items = projection ∧ p.filters = joinPlan.selection ∧
      p.tables = joinPlan.entries.map (fun entry => ⟨entry.table, entry.index⟩) ∧
      joinPlan.entries.map Entry.index = List.range' 1 joinPlan.entries.length := by
  obtain ⟨p, made, arranged⟩ :=
    resolved_arranged (q := ⟨distinct, projection, joinPlan⟩) resolved inhabited
  have sound : ∀ t ∈ p.tables, SoundName t.table :=
    arranged_names arranged resolved fun t member name table =>
      plain_sound (plain t member name table)
  have numbered := arranged.numbered
  rw [arranged.tables, List.map_map, List.length_map] at numbered
  exact ⟨p, made, arranged.readable inhabited sound, arranged.items, arranged.filters,
    arranged.tables, numbered⟩

theorem shows_plan {p : SelectPlan} {shape : Shape} (shows : p.plain.Shows shape)
    (filters : p.filters = joinPlan.selection)
    (tables : p.tables = joinPlan.entries.map (fun entry => ⟨entry.table, entry.index⟩))
    (numbered : joinPlan.entries.map Entry.index = List.range' 1 joinPlan.entries.length) :
    joinPlan.Shows p.items shape := by
  have shown : p.Shows shape := by
    refine SelectPlan.plain_shown shows ?_
    rw [tables, List.map_map, List.length_map]
    exact numbered
  refine ⟨shown.projection, shown.increasing, fun name => ?_, fun short name => ?_, ?_⟩
  · rw [shown.tables, tables, List.map_map]
    rfl
  · rw [shown.aliases, tables]
    constructor
    · rintro ⟨k, t, at_k, rfl, rfl⟩
      rw [List.getElem?_map] at at_k
      obtain ⟨entry, found, rfl⟩ := Option.map_eq_some_iff.mp at_k
      exact ⟨k, entry, found, rfl, rfl⟩
    · rintro ⟨k, entry, found, rfl, rfl⟩
      exact ⟨k, ⟨entry.table, entry.index⟩, by rw [List.getElem?_map, found]; rfl, rfl, rfl⟩
  · rw [shown.predicates, filters]

theorem statement_read_back (triples : List Triple) (joinPlan : JoinPlan) (distinct : Bool)
    (projection : List ProjectionItem) (resolved : resolve triples = .ok joinPlan)
    (inhabited : projection ≠ []) (plain : ∀ t ∈ triples, ∀ name ∈ t.table?, PlainName name) :
    ∃ p statement shape, SelectPlan.ofQueryPlan ⟨distinct, projection, joinPlan⟩ = .ok p ∧
      Partition.parseStatement p.text = .ok statement ∧
      Shape.ofStatement statement = .ok shape ∧ joinPlan.Shows projection shape := by
  obtain ⟨p, made, readable, items, filters, tables, numbered⟩ :=
    resolved_readable distinct resolved inhabited plain
  have different : (p.plain.tables.map PlainTable.short).Nodup := by
    have shorts : p.plain.tables.map PlainTable.short =
        (joinPlan.entries.map Entry.index).map aliasName := by
      rw [p.plain_tables, tables, List.map_map, List.map_map, List.map_map]
      rfl
    rw [shorts, numbered]
    exact List.Nodup.map (fun _ _ => alias_injective) List.nodup_range'
  obtain ⟨shape, walked, shows⟩ := plain_select_shape p.plain different
  have plan := shows_plan shows filters tables numbered
  rw [items] at plan
  exact ⟨p, .query p.plain.query, shape, made, SelectPlan.parse_text readable, walked, plan⟩

end

def quoted : List Triple := [
  ⟨.variable ['x'], .constant ['p'], .variable ['x']⟩,
  ⟨.constant "a; '' --\n".toList, .constant ['q'], .variable ['x']⟩]

def quotedPlan : JoinPlan where
  entries := [
    ⟨['p'], 1, none, [⟨⟨1, .subject⟩, ⟨1, .object⟩⟩]⟩,
    ⟨['q'], 2, some ⟨⟨1, .subject⟩, ⟨2, .object⟩⟩, []⟩]
  filters := [⟨⟨2, .subject⟩, "a; '' --\n".toList⟩]
  bindings := [(['x'], ⟨1, .subject⟩)]

theorem quoted_read_back :
    resolve quoted = .ok quotedPlan ∧
      ∃ p statement shape,
        SelectPlan.ofQueryPlan ⟨true, [⟨['x'], ⟨1, .subject⟩⟩], quotedPlan⟩ = .ok p ∧
        Partition.parseStatement p.text = .ok statement ∧
        Shape.ofStatement statement = .ok shape ∧
        quotedPlan.Shows [⟨['x'], ⟨1, .subject⟩⟩] shape := by
  have resolved : resolve quoted = .ok quotedPlan := by decide +kernel
  have plain : ∀ t ∈ quoted, ∀ name ∈ t.table?, PlainName name := by decide +kernel
  exact ⟨resolved, statement_read_back quoted quotedPlan true _ resolved (by decide) plain⟩

end TripleTable.Plan
