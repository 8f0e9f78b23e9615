import TripleTable.Proofs.Plan.ReadBack
import TripleTable.Proofs.Sql.Renaming
set_option autoImplicit false

/-!
The text that the statement of a plan is printed with: keywords in capitals, and AS before the
aliases. A constant comes through as it is, unless one of its apostrophes seems to be escaped.
-/
namespace TripleTable.Plan
open Sql

/-! ### Constants -/

-- An apostrophe behind another or behind a backslash is taken to be escaped already.
def Printable (value : Text) : Prop :=
  value.IsChain fun c d => d = '\'' → c ≠ '\'' ∧ c ≠ '\\'

instance : DecidablePred Printable := fun _ => inferInstanceAs (Decidable (List.IsChain _ _))

theorem printable_cons (c d : Char) (s : Text) :
    Printable (c :: d :: s) ↔ (d = '\'' → c ≠ '\'' ∧ c ≠ '\\') ∧ Printable (d :: s) :=
  List.isChain_cons_cons

theorem double_quote (s : Text) :
    Text.double '\'' ('\'' :: s) = '\'' :: '\'' :: Text.double '\'' s :=
  rfl

theorem double_other {c : Char} (other : c ≠ '\'') (s : Text) :
    Text.double '\'' (c :: s) = c :: Text.double '\'' s := by
  simp [Text.double, other]

-- A printed apostrophe may be missing, but none is added.
theorem escape_within (previous : Char) (value : Text) :
    (escapeQuotes '\'' previous value).Sublist (Text.double '\'' value) := by
  fun_induction escapeQuotes '\'' previous value with
  | case1 => exact .slnil
  | case2 => exact .cons _ (.refl _)
  | case3 => exact .refl _
  | case4 previous c other =>
    rw [double_other other]
    exact .refl _
  | case5 d s within =>
    rw [double_quote]
    exact (within.cons _).cons_cons _
  | case6 previous s plain within =>
    rw [double_quote, double_quote]
    exact ((((within.cons _).cons _).cons_cons _).cons_cons _)
  | case7 previous d s plain other within =>
    rw [double_quote]
    exact (within.cons_cons _).cons_cons _
  | case8 previous c d s other within =>
    rw [double_other other]
    exact within.cons_cons _

-- The scan goes on behind an apostrophe only if no other follows.
theorem escape_double {previous : Char} {value : Text}
    (apart : previous = '\'' → ∀ c ∈ value.head?, c ≠ '\'') :
    escapeQuotes '\'' previous value = Text.double '\'' value ↔ Printable (previous :: value) := by
  fun_induction escapeQuotes '\'' previous value with
  | case1 => simp [Text.double, Printable]
  | case2 => simp [Text.double, Printable]
  | case3 previous plain =>
    have other : previous ≠ '\'' := fun same => apart same '\'' rfl rfl
    simp [Text.double, Printable, plain, other]
  | case4 previous c other => simp [Text.double, Printable, other]
  | case5 d s ih =>
    have shorter := (escape_within '\\' (d :: s)).length_le
    rw [double_quote, printable_cons]
    refine ⟨fun same => ?_, fun both => absurd rfl (both.1 rfl).2⟩
    have lengths := congrArg List.length same
    simp only [List.length_cons] at lengths shorter
    omega
  | case6 previous s plain ih =>
    have shorter := (escape_within '\'' s).length_le
    rw [double_quote, double_quote, printable_cons, printable_cons]
    refine ⟨fun same => ?_, fun all => absurd rfl (all.2.1 rfl).1⟩
    have lengths := congrArg List.length same
    simp only [List.length_cons] at lengths
    omega
  | case7 previous d s plain other ih =>
    have behind := ih fun _ c head => by
      cases head
      exact other
    have outside : previous ≠ '\'' := fun same => apart same '\'' rfl rfl
    rw [double_quote, printable_cons, List.cons_inj_right, List.cons_inj_right, behind]
    simp [plain, outside]
  | case8 previous c d s other ih =>
    have behind := ih fun same => absurd same other
    rw [double_other other, printable_cons, List.cons_inj_right, behind]
    simp [other]

theorem quote_doubled (value : Text) :
    quoteText '\'' value = '\'' :: Text.double '\'' value ++ ['\''] ↔ Printable value := by
  have start : Printable ('\x00' :: value) ↔ Printable value := by
    cases value with
    | nil => simp [Printable]
    | cons c s =>
      rw [printable_cons]
      simp
  rw [← start, ← escape_double (by simp), quoteText]
  simp

/-! ### Statements -/

def Filter.Printable : Filter → Prop
  | columns _ => True
  | constant f => Plan.Printable f.literal

instance : DecidablePred Filter.Printable
  | .columns _ => inferInstanceAs (Decidable True)
  | .constant f => inferInstanceAs (Decidable (Plan.Printable f.literal))

def Filter.printed (f : Filter) : Text := f.equality.expr.text

theorem equality_text (e : Equality) :
    e.expr.text = e.left.expr.text ++ " = ".toList ++ e.right.expr.text := by
  have parts : e.expr.text =
      e.left.expr.text ++ " ".toList ++ "=".toList ++ " ".toList ++ e.right.expr.text := rfl
  rw [parts, show " = ".toList = " ".toList ++ "=".toList ++ " ".toList by decide]
  simp only [List.append_assoc]

theorem condition_printed (c : Condition) : c.equality.expr.text = c.text := by
  rw [equality_text, Condition.text]
  exact congrArg₂ (fun left right => left ++ " = ".toList ++ right) (column_text c.left)
    (column_text c.right)

theorem constant_printed (f : ConstantFilter) :
    (Filter.constant f).printed = f.column.text ++ " = ".toList ++ quoteText '\'' f.literal := by
  rw [Filter.printed, equality_text]
  exact congrArg (· ++ " = ".toList ++ quoteText '\'' f.literal) (column_text f.column)

theorem constant_text (f : ConstantFilter) :
    (Filter.constant f).text =
      f.column.text ++ " = ".toList ++ ('\'' :: Text.double '\'' f.literal ++ ['\'']) := by
  rw [Filter.text, ConstantFilter.text, show " = '".toList = " = ".toList ++ ['\''] by decide]
  simp

theorem filter_printed (f : Filter) : f.printed = f.text ↔ f.Printable := by
  cases f with
  | columns c => exact iff_true_intro (condition_printed c)
  | constant f =>
    rw [constant_printed, constant_text, List.append_cancel_left_eq]
    exact quote_doubled f.literal

theorem filter_within (f : Filter) : f.printed.Sublist f.text := by
  cases f with
  | columns c =>
    rw [(filter_printed (.columns c)).mpr trivial]
  | constant f =>
    rw [constant_printed, constant_text]
    exact (List.Sublist.refl _).append
      (((escape_within '\x00' f.literal).append (.refl _)).cons_cons _)

theorem conjunction_text (first : Expr) (more : List Equality) :
    (Equality.conjunction first more).text =
      first.text ++ more.flatMap fun e => " AND ".toList ++ e.expr.text := by
  induction more generalizing first with
  | nil => simp [Equality.conjunction]
  | cons e more ih =>
    have both : (Expr.binary first .and e.expr).text =
        first.text ++ (" AND ".toList ++ e.expr.text) := by
      have parts : (Expr.binary first .and e.expr).text =
          first.text ++ " ".toList ++ "AND".toList ++ " ".toList ++ e.expr.text := rfl
      rw [parts, show " AND ".toList = " ".toList ++ "AND".toList ++ " ".toList by decide]
      simp only [List.append_assoc]
    have rest := ih (.binary first .and e.expr)
    rw [both] at rest
    rw [List.flatMap_cons, ← List.append_assoc, ← rest]
    rfl

theorem join_prefixed {α : Type} (text : α → Text) (mark : Text) (first : α) (more : List α) :
    Text.join mark ((first :: more).map text) =
      text first ++ more.flatMap fun a => mark ++ text a := by
  rw [Text.join, List.map_cons, intercalate_flat, List.flatMap_map]

theorem all_text {conditions : List Equality} {condition : Expr}
    (all : Equality.all conditions = some condition) :
    condition.text = Text.join (separator true) (conditions.map fun e => e.expr.text) := by
  cases conditions with
  | nil => cases all
  | cons first more =>
    cases all
    rw [conjunction_text, join_prefixed, show separator true = " AND ".toList by decide]

theorem appended_parts {a b x y : Text} (front : a.Sublist b) (back : x.Sublist y) :
    a ++ x = b ++ y ↔ a = b ∧ x = y := by
  refine ⟨fun same => ?_, fun both => by rw [both.1, both.2]⟩
  have lengths := congrArg List.length same
  have front_length := front.length_le
  have back_length := back.length_le
  simp only [List.length_append] at lengths
  exact ⟨front.eq_of_length (by omega), back.eq_of_length (by omega)⟩

theorem prefixed_printed (mark : Text) (filters : List Filter) :
    (filters.flatMap fun f => mark ++ f.printed).Sublist
        (filters.flatMap fun f => mark ++ f.text) ∧
      ((filters.flatMap fun f => mark ++ f.printed) = (filters.flatMap fun f => mark ++ f.text) ↔
        ∀ f ∈ filters, f.Printable) := by
  induction filters with
  | nil => simp
  | cons f filters ih =>
    obtain ⟨within, same⟩ := ih
    have first : (mark ++ f.printed).Sublist (mark ++ f.text) :=
      (List.Sublist.refl mark).append (filter_within f)
    simp only [List.flatMap_cons]
    refine ⟨first.append within, ?_⟩
    rw [appended_parts first within, same, List.append_cancel_left_eq, filter_printed,
      List.forall_mem_cons]

-- The apostrophes that one filter lacks are not made up for by another.
theorem joined_printed (mark : Text) (filters : List Filter) :
    Text.join mark (filters.map Filter.printed) = Text.join mark (filters.map Filter.text) ↔
      ∀ f ∈ filters, f.Printable := by
  cases filters with
  | nil => simp
  | cons f filters =>
    obtain ⟨within, same⟩ := prefixed_printed mark filters
    rw [join_prefixed, join_prefixed, appended_parts (filter_within f) within, same,
      filter_printed, List.forall_mem_cons]

theorem relation_text (t : NumberedTable) : t.plain.relation.text = t.written true := by
  have parts : t.plain.relation.text =
      (Name.ofKey t.table).text ++ [] ++ (" AS ".toList ++ (aliasName t.index ++ [])) ++ [] := rfl
  rw [parts, name_of_key_text, NumberedTable.written,
    show " AS ".toList = ' ' :: (spell true "as" ++ [' ']) by decide]
  simp

theorem joined_text {j : Join} (placed : j.on ≠ []) : j.plain.join.text = j.written true := by
  cases all : Equality.all (j.on.map Condition.equality) with
  | none =>
    cases on : j.on with
    | nil => exact absurd on placed
    | cons c more =>
      rw [on] at all
      cases all
  | some condition =>
    have conditions : condition.text = Text.join (separator true) (j.on.map Condition.text) := by
      have texts : (j.on.map Condition.equality).map (fun e => e.expr.text) =
          j.on.map Condition.text := by
        rw [List.map_map]
        exact List.map_congr_left fun c _ => condition_printed c
      rw [all_text all, texts]
    have parts : j.plain.join.text = " JOIN ".toList ++ j.source.plain.relation.text ++
        (" ON ".toList ++ (condition.text ++ [])) := by
      rw [Join.plain, PlainJoin.join, all]
      rfl
    rw [parts, relation_text, conditions, Join.written,
      show " JOIN ".toList = ' ' :: (spell true "join" ++ [' ']) by decide,
      show " ON ".toList = ' ' :: (spell true "on" ++ [' ']) by decide]
    simp

namespace SelectPlan
variable {p : SelectPlan}

theorem items_text (items : List ProjectionItem) :
    itemsText ((items.map fun item => item.column.side).map fun side => .parts [.operand side.expr]) =
      Text.join ", " (items.map fun item => item.column.text) := by
  have item : ∀ i : ProjectionItem,
      (Item.parts [.operand i.column.side.expr]).text = i.column.text := by
    intro i
    have parts : (Item.parts [.operand i.column.side.expr]).text =
        i.column.side.expr.text ++ [] := rfl
    rw [parts, List.append_nil, column_text]
  rw [items_joined, List.map_map, List.map_map]
  exact congrArg (Text.join ", ") (List.map_congr_left fun i _ => item i)

theorem sources_text (placed : ∀ j ∈ p.joins, j.on ≠ []) :
    sourcesText [p.plain.source] = p.sourcesWritten true := by
  have joins : ∀ joins : List Join, (∀ j ∈ joins, j.on ≠ []) →
      Sql.joinsText ((joins.map Join.plain).map PlainJoin.join) =
        joins.flatMap (Join.written true) := by
    intro joins placed
    induction joins with
    | nil => rfl
    | cons j joins ih =>
      obtain ⟨here, later⟩ := List.forall_mem_cons.mp placed
      rw [List.map_cons, List.map_cons, Sql.joinsText, ih later, joined_text here, List.flatMap_cons]
  have parts : sourcesText [p.plain.source] = " FROM ".toList ++
      (p.source.plain.relation.text ++ Sql.joinsText ((p.joins.map Join.plain).map PlainJoin.join)) ++
        [] := rfl
  rw [parts, relation_text, joins p.joins placed, sourcesWritten,
    show " FROM ".toList = ' ' :: (spell true "from" ++ [' ']) by decide]
  simp

theorem selection_printed (p : SelectPlan) :
    selectionText p.plain.block.selection = p.filtersWritten true ↔
      ∀ f ∈ p.filters, f.Printable := by
  have selection : p.plain.block.selection = Equality.all (p.filters.map Filter.equality) := rfl
  rw [filtersWritten, selection]
  cases p.filters with
  | nil =>
    rw [if_pos rfl]
    exact iff_of_true rfl (by simp)
  | cons f more =>
    obtain ⟨condition, all⟩ : ∃ condition,
        Equality.all ((f :: more).map Filter.equality) = some condition := ⟨_, rfl⟩
    have printed : condition.text =
        Text.join (separator true) ((f :: more).map Filter.printed) := by
      rw [all_text all, List.map_map]
      rfl
    rw [all, selection_text, printed, if_neg (by simp), ← joined_printed (separator true),
      show " WHERE ".toList = ' ' :: (spell true "where" ++ [' ']) by decide]
    simp

theorem query_text (placed : ∀ j ∈ p.joins, j.on ≠ []) :
    p.plain.query.text = spell true "select" ++
      ' ' :: ((if p.distinct then spell true "distinct" ++ [' '] else []) ++
        (Text.join ", " (p.items.map fun item => item.column.text) ++
          (p.sourcesWritten true ++ selectionText p.plain.block.selection))) := by
  have parts : p.plain.query.text = p.plain.block.text ++ [] := rfl
  have head : partsText p.plain.block.head ++ " ".toList =
      ' ' :: (if p.distinct then spell true "distinct" ++ [' '] else []) := by
    have marked : p.plain.block.head = if p.distinct then [.words " DISTINCT"] else [] := rfl
    rw [marked]
    cases p.distinct <;> decide
  have block : p.plain.block.text = "SELECT".toList ++
      (partsText p.plain.block.head ++ " ".toList) ++ itemsText p.plain.block.projection ++ [] ++
        sourcesText [p.plain.source] ++ [] ++ selectionText p.plain.block.selection ++ [] := by
    rw [← List.append_assoc "SELECT".toList]
    rfl
  have items : itemsText p.plain.block.projection =
      Text.join ", " (p.items.map fun item => item.column.text) := items_text p.items
  rw [parts, block, head, items, sources_text placed,
    show spell true "select" = "SELECT".toList by decide]
  simp only [List.append_nil, List.append_assoc, List.cons_append]

-- The printed statement is the one that its plan is written as exactly if its constants come
-- through.
theorem statement_printed (placed : ∀ j ∈ p.joins, j.on ≠ []) :
    p.plain.query.text = p.written true ↔ ∀ f ∈ p.filters, f.Printable := by
  rw [query_text placed, written, ← selection_printed]
  simp

end SelectPlan
end TripleTable.Plan
