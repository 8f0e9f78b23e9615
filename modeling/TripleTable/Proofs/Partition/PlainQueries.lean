import TripleTable.Proofs.Partition.Disjunctions
import TripleTable.Proofs.Partition.Idempotence
import TripleTable.Proofs.Plan.Printing
import TripleTable.Proofs.Shape.Scope
import TripleTable.Proofs.Sql.TableLists
set_option autoImplicit false

/-!
Queries over a list of tables in which no name needs quotes, the aliases among them: what a
rewriting emits for such a query is read back, up to the grouping of its condition.
-/
namespace TripleTable.Partition
open Sql

/-! ### Conditions -/

-- What a column is compared with: a column, a whole number, or a string that is printed as it is.
inductive PlainValue : Expr → Prop
  | column {names : Name} : PlainPath names → PlainValue names.expr
  | number (p : Int) : PlainValue (signed p)
  | string {value : Text} : Plan.Printable value → PlainValue (.string value)

inductive PlainCondition : Expr → Prop
  | compared {names : Name} {right : Expr} (op : ComparisonOp) : PlainPath names →
    PlainValue right → PlainCondition (.binary names.expr (.compare op) right)
  | both {left right : Expr} : PlainCondition left → PlainCondition right →
    PlainCondition (.binary left .and right)

theorem condition_ends {rest : Text} (ends : EndsCondition rest) : Ends rest ∧ EndsNumber rest :=
  ⟨fun c head => .inl (ends c head), fun c head => .inl (ends c head)⟩

theorem signed_printed (p : Int) : (signedPhrase p).Printed EndsNumber := by
  intro rest tokens ends lexes
  have lexed := lexes_signed p ends lexes
  rwa [← signed_text] at lexed

theorem value_phrase (g : Grammar) {e : Expr} (value : PlainValue e) :
    ∃ p : Phrase, p.expr = e ∧ Grammar.Legible g p.tokens p.expr ∧ p.Printed EndsCondition := by
  cases value with
  | @column names path =>
    exact ⟨names.phrase, rfl, path_legible g path, fun rest tokens ends =>
      path_printed path rest tokens (condition_ends ends).1⟩
  | number p =>
    exact ⟨signedPhrase p, rfl, signed_legible g p, fun rest tokens ends =>
      signed_printed p rest tokens (condition_ends ends).2⟩
  | @string value printable =>
    refine ⟨⟨[.string value], .string value⟩, rfl, Grammar.string_legible g value, ?_⟩
    intro rest tokens ends lexes
    have text : (Expr.string value).text = '\'' :: Text.double '\'' value ++ ['\''] :=
      (Plan.quote_doubled value).mpr printable
    rw [text]
    simpa using lexes_string value (condition_ends ends).1 lexes

theorem condition_conjoined (g : Grammar) {e : Expr} (plain : PlainCondition e) :
    Conjoined g e := by
  induction plain with
  | @compared names right op path value =>
    obtain ⟨p, rfl, legible, printed⟩ := value_phrase g value
    have joinable : Grammar.Joinable g (names.phrase.compared op p) :=
      Grammar.compared_joinable (path_legible g path) op legible
    exact ⟨_, _, .single (compared_printed op (path_printed path) printed) joinable⟩
  | both _ _ left right => exact left.both right

/-! ### Constraints -/

-- The column of a constraint is qualified, so that it is read back as the path that it was.
structure PlainKey (key : Text) : Prop where
  path : PlainPath (Name.ofKey key)
  qualified : (Name.ofKey key).expr = .path (Name.ofKey key)

theorem qualified_key {qualifier : Text} (path : PlainPath (Name.ofKey qualifier)) {column : Text}
    (bare : isBareWord column) : PlainKey (qualifier ++ "." ++ column) := by
  have names := of_key_qualified qualifier (bare_no_period bare)
  have inhabited := of_key_inhabited qualifier
  constructor
  · rw [names]
    exact (qualified_plain inhabited _).mpr ⟨path, rfl, bare⟩
  · rw [names, qualified_expr inhabited]

section
variable {column : Text} {partitions : List Int}

theorem spelled_chain (g : Grammar) (plain : PlainKey column) (p : Int) :
    Chain g EndsNumber .or (spelled column p) (equation column p) [] := by
  have expr : (equation column p).expr = spelled column p :=
    congrArg (Expr.binary · (.compare .eq) (signed p)) plain.qualified
  have joinable : Grammar.Joinable g (equation column p) :=
    Grammar.compared_joinable (path_legible g plain.path) .eq (signed_legible g p)
  rw [← expr]
  exact .single (compared_printed .eq (path_printed plain.path) (signed_printed p)) joinable

theorem constraint_conjoined (depth : Nat) (plain : PlainKey column) (inhabited : partitions ≠ []) :
    Conjoined (Grammar.ofDepth (depth + 1)) (Constraint.condition ⟨column, partitions⟩) := by
  have each : ∀ term ∈ partitions.map (spelled column), ∃ first more,
      (∀ rest, Next [] isIdle (first.tokens ++ rest)) ∧
        Chain (Grammar.ofDepth depth) EndsNumber .or term first more := by
    refine List.forall_mem_map.mpr fun p _ => ⟨_, _, fun rest => ?_, spelled_chain _ plain p⟩
    rw [equation, Phrase.compared, List.append_assoc]
    exact plain.path.begins _
  obtain ⟨e, made, first, more, begins, chain⟩ := disjunction_all
    (fun left right here there => by
      obtain ⟨first, more, begins, front⟩ := here
      obtain ⟨second, others, -, back⟩ := there
      exact ⟨first, _, begins, front.both (.inr rfl) (by simp [EndsNumber]) back⟩)
    (by simpa using inhabited) each
  have condition : Constraint.condition ⟨column, partitions⟩ = .nested e := by
    rw [Constraint.condition, made, Option.getD_some]
  rw [condition]
  exact ⟨_, _, chain.nested .and (.inr rfl) rfl begins (by simp [EndsNumber])⟩

end

/-! ### The metadata -/

structure Metadata.Plain (metadata : Metadata) : Prop where
  targets : ∀ m ∈ metadata.mappings, PlainPath (Name.ofKey m.target)
  columns : ∀ a ∈ metadata.attributes, isBareWord a.targetColumn

instance : DecidablePred Metadata.Plain := fun metadata =>
  decidable_of_iff ((∀ m ∈ metadata.mappings, PlainPath (Name.ofKey m.target)) ∧
      ∀ a ∈ metadata.attributes, isBareWord a.targetColumn)
    ⟨fun ⟨targets, columns⟩ => ⟨targets, columns⟩, fun ⟨targets, columns⟩ => ⟨targets, columns⟩⟩

section
variable {metadata : Metadata} {b : ListedSelect} {shape : Shape}

theorem renaming_plain (known : metadata.Plain) (shape : Shape) :
    (renamingOf metadata shape).Plain := by
  intro key target found
  have row := NameTable.find_map (matchedMappings shape.tables metadata.mappings)
    TableMapping.target key
  obtain ⟨m, matched, rfl⟩ := Option.map_eq_some_iff.mp (row.symm.trans found)
  exact known.targets m (matched_member matched)

theorem listed_relations (b : ListedSelect) :
    Shape.relations b.block = b.tables.map ListedTable.relation := by
  rw [Shape.relations, ListedSelect.block, List.flatMap_map, List.map_eq_flatMap]
  rfl

theorem alias_plain (plain : b.Plain) (walked : Shape.ofSelect b.block = .ok shape) {name : Text}
    (known : shape.aliases.contains name) : PlainPath (Name.ofKey name) := by
  obtain ⟨relation, member, -, a, aliased, rfl⟩ := (Shape.alias_contains walked name).mp known
  rw [listed_relations] at member
  obtain ⟨t, listed, rfl⟩ := List.mem_map.mp member
  obtain ⟨short, named, rfl⟩ := Option.map_eq_some_iff.mp aliased
  have path := (plain.tables t listed).short short named
  rwa [of_key_plain (bare_no_period (path.bare _ List.mem_cons_self).2)]

theorem constraint_key (known : metadata.Plain) (plain : b.Plain)
    (walked : Shape.ofSelect b.block = .ok shape) :
    ∀ c ∈ constraintsOf metadata shape, PlainKey c.column := by
  intro c member
  obtain ⟨comparison, among⟩ := constraint_finding member
  obtain ⟨table, mapping, -, matched, a, listed, expanded⟩ := finding_found among
  rw [expand_column expanded]
  refine qualified_key ?_ (known.columns a listed)
  cases found : shape.aliasOf? comparison.left table with
  | some name => exact alias_plain plain walked (Shape.alias_of_known found)
  | none => exact known.targets mapping (matched_member matched)

theorem condition_renamed {r : Renaming} (targets : r.Plain) {e : Expr}
    (plain : PlainCondition e) : PlainCondition (e.rename r) := by
  induction plain with
  | @compared names right op path value =>
    have renamed : PlainValue (right.rename r) := by
      cases value with
      | column path =>
        rw [rename_names]
        exact .column (path_plain targets path)
      | number p =>
        have kept : (signed p).rename r = signed p := by cases p <;> rfl
        rw [kept]
        exact .number p
      | string printable => exact .string printable
    rw [Expr.rename, rename_names]
    exact .compared op (path_plain targets path) renamed
  | both _ _ left right => exact .both left right

theorem selection_renamed {r : Renaming} (targets : r.Plain) {selection : Option Expr}
    (plain : ∀ e ∈ selection, PlainCondition e) :
    ∀ e ∈ renameSelection r selection, PlainCondition e := by
  cases selection with
  | none => exact plain
  | some condition =>
    rintro _ ⟨⟩
    exact condition_renamed targets (plain condition rfl)

-- The emitted statement is a block over plain names again, and its condition is one chain.
theorem emitted_reads_back (known : metadata.Plain) (plain : b.Plain)
    (condition : ∀ e ∈ b.selection, PlainCondition e)
    (walked : Shape.ofQuery b.query = .ok shape) :
    ∃ again, parseStatement (emitted metadata shape b.query).text = .ok (.query again) ∧
      Shape.QueryRegrouped (emitted metadata shape b.query) again := by
  obtain ⟨-, -, block, body, entered⟩ := Shape.of_query.mp walked
  obtain rfl : b.block = block := Body.select.inj body
  have targets := renaming_plain known shape
  let renamed := b.renamed (renamingOf metadata shape)
  let selection := conjunction renamed.selection
    ((constraintsOf metadata shape).map Constraint.condition)
  have emits : emitted metadata shape b.query = { renamed with selection }.query := by
    rw [emitted, rename_listed, conjoin_select rfl]
    rfl
  have conjoined : ∀ e ∈ selection, Conjoined (Grammar.ofDepth 47) e := by
    have before : ∀ e ∈ renamed.selection, Conjoined (Grammar.ofDepth 47) e := fun e member =>
      condition_conjoined _ (selection_renamed targets condition e member)
    have added : ∀ e ∈ (constraintsOf metadata shape).map Constraint.condition,
        Conjoined (Grammar.ofDepth 47) e :=
      List.forall_mem_map.mpr fun c member => constraint_conjoined 46
        (constraint_key known plain entered c member) (constraints_readable c member).1
    exact conjunction_all (fun _ _ => Conjoined.both) added before
  have again : ({ renamed with selection } : ListedSelect).Plain := by
    obtain ⟨some_item, items, some_table, tables⟩ := renamed_plain targets plain
    exact ⟨some_item, items, some_table, tables⟩
  obtain ⟨grouped, read, regrouped⟩ := listed_read_back again conjoined
  rw [emits]
  refine ⟨_, read, ?_⟩
  generalize selection = e at regrouped
  cases regrouped with
  | none => exact .inl rfl
  | some same => exact .inr ⟨_, _, _, rfl, rfl, same, rfl⟩

end
end TripleTable.Partition
