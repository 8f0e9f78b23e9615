import TripleTable.Sql.Nesting
set_option autoImplicit false

/-!
Where queries stand below a query: for each of them, the way to it, as the places it leads
through. The search for subqueries finds what stands as a value on some way, and nothing else.
-/
namespace TripleTable.Sql

-- A query stands as a value (also behind IN and EXISTS), as a derived table, among the named
-- queries of WITH, in parentheses as the whole body, on a side of a set operation, or as a part
-- kept in a longer form, as in ARRAY.
inductive Place where
  | value
  | table
  | named
  | enclosed
  | side
  | kept
deriving DecidableEq, Repr

abbrev Way := List Place

-- The way to what stands at a place, and the ways on from there.
def under (place : Place) (ways : List Way) : List Way := [place] :: ways.map (place :: ·)

mutual

def Expr.ways : Expr → List Way
  | .column _ => []
  | .path _ => []
  | .number _ _ => []
  | .string _ => []
  | .boolean _ => []
  | .null => []
  | .nested inner => inner.ways
  | .unary _ operand => operand.ways
  | .binary left _ right => left.ways ++ right.ways
  | .subquery q => under .value q.ways
  | .inSubquery operand _ q => operand.ways ++ under .value q.ways
  | .existsSubquery _ q => under .value q.ways
  | .form parts => partsWays .kept parts

def Part.ways (place : Place) : Part → List Way
  | .words _ => []
  | .operand e => e.ways
  | .query q => under place q.ways
  | .source s => s.ways.map (place :: ·)

def partsWays (place : Place) : List Part → List Way
  | [] => []
  | part :: rest => part.ways place ++ partsWays place rest

def Query.ways : Query → List Way
  | ⟨ctes, body, tail⟩ => partsWays .named ctes ++ (body.ways ++ partsWays .kept tail)

def Body.ways : Body → List Way
  | .select block => block.ways
  | .nested q => under .enclosed q.ways
  | .combined left _ _ right => under .side left.ways ++ under .side right.ways
  | .other parts => partsWays .kept parts

def Select.ways : Select → List Way
  | ⟨head, projection, _, sources, views, selection, tail⟩ =>
    partsWays .kept head ++ (itemsWays projection ++ (sourcesWays sources ++
      (partsWays .kept views ++ (selectionWays selection ++ partsWays .kept tail))))

def selectionWays : Option Expr → List Way
  | none => []
  | some condition => condition.ways

def Item.ways : Item → List Way
  | .parts parts => partsWays .kept parts
  | .qualifiedWildcard _ options => partsWays .kept options

def itemsWays : List Item → List Way
  | [] => []
  | item :: rest => item.ways ++ itemsWays rest

def Source.ways : Source → List Way
  | ⟨relation, joins⟩ => relation.ways ++ joinsWays joins

def sourcesWays : List Source → List Way
  | [] => []
  | source :: rest => source.ways ++ sourcesWays rest

def joinsWays : List Join → List Way
  | [] => []
  | join :: rest => join.ways ++ joinsWays rest

def Join.ways : Join → List Way
  | ⟨_, relation, constraint⟩ => relation.ways ++ partsWays .kept constraint

def Relation.ways : Relation → List Way
  | ⟨factor, _, hints⟩ => factor.ways ++ partsWays .kept hints

def Factor.ways : Factor → List Way
  | .table _ arguments => partsWays .kept arguments
  | .derived _ q => under .table q.ways
  | .nested inner => inner.ways
  | .other parts => partsWays .kept parts

end

def Statement.ways : Statement → List Way
  | .query q => q.ways
  | .command _ => []

/-! ### What the search for subqueries misses -/

def Valueless (ways : List Way) : Prop := ∀ way ∈ ways, .value ∉ way

section
variable {first second ways : List Way} {place : Place}

theorem valueless_nil : Valueless [] := fun _ member => absurd member List.not_mem_nil

theorem Valueless.append (left : Valueless first) (right : Valueless second) :
    Valueless (first ++ second) := List.forall_mem_append.mpr ⟨left, right⟩

theorem Valueless.behind (valueless : Valueless ways) (other : place ≠ .value) :
    Valueless (ways.map (place :: ·)) := by
  refine List.forall_mem_map.mpr fun way member inside => ?_
  rcases List.mem_cons.mp inside with same | further
  · exact other same.symm
  · exact valueless way member further

theorem Valueless.under (valueless : Valueless ways) (other : place ≠ .value) :
    Valueless (under place ways) := by
  refine List.forall_mem_cons.mpr ⟨?_, valueless.behind other⟩
  rw [List.mem_singleton]
  exact other.symm

end

mutual

theorem Expr.valueless (e : Expr) (simple : e.hasSubquery = false) : Valueless e.ways := by
  cases e with
  | nested inner => exact inner.valueless simple
  | unary op operand => exact operand.valueless simple
  | binary left op right =>
    obtain ⟨first, second⟩ := Bool.or_eq_false_iff.mp simple
    exact (left.valueless first).append (right.valueless second)
  | form parts => exact parts_valueless parts (by decide) simple
  | subquery q => cases simple
  | inSubquery operand negated q => cases simple
  | existsSubquery negated q => cases simple
  | _ => exact valueless_nil

theorem Part.valueless (part : Part) {place : Place} (other : place ≠ .value)
    (simple : part.hasSubquery = false) : Valueless (part.ways place) := by
  cases part with
  | words text => exact valueless_nil
  | operand e => exact e.valueless simple
  | query q => exact (q.valueless simple).under other
  | source s => exact (s.valueless simple).behind other

theorem parts_valueless (parts : List Part) {place : Place} (other : place ≠ .value)
    (simple : partsHaveSubquery parts = false) : Valueless (partsWays place parts) := by
  cases parts with
  | nil => exact valueless_nil
  | cons part rest =>
    obtain ⟨first, others⟩ := Bool.or_eq_false_iff.mp simple
    exact (part.valueless other first).append (parts_valueless rest other others)

theorem Query.valueless (q : Query) (simple : q.hasSubquery = false) : Valueless q.ways := by
  obtain ⟨ctes, body, tail⟩ := q
  simp only [Query.hasSubquery, Bool.or_eq_false_iff] at simple
  exact (parts_valueless ctes (by decide) simple.1.1).append
    ((body.valueless simple.1.2).append (parts_valueless tail (by decide) simple.2))

theorem Body.valueless (body : Body) (simple : body.hasSubquery = false) :
    Valueless body.ways := by
  cases body with
  | select block => exact block.valueless simple
  | nested q => exact (q.valueless simple).under (by decide)
  | combined left op quantifier right =>
    obtain ⟨first, second⟩ := Bool.or_eq_false_iff.mp simple
    exact ((left.valueless first).under (by decide)).append
      ((right.valueless second).under (by decide))
  | other parts => exact parts_valueless parts (by decide) simple

theorem Select.valueless (block : Select) (simple : block.hasSubquery = false) :
    Valueless block.ways := by
  obtain ⟨head, projection, target, sources, views, selection, tail⟩ := block
  simp only [Select.hasSubquery, Bool.or_eq_false_iff] at simple
  obtain ⟨⟨⟨⟨⟨in_head, in_projection⟩, in_sources⟩, in_views⟩, in_selection⟩, in_tail⟩ := simple
  exact (parts_valueless head (by decide) in_head).append
    ((items_valueless projection in_projection).append
      ((sources_valueless sources in_sources).append
        ((parts_valueless views (by decide) in_views).append
          ((selection_valueless selection in_selection).append
            (parts_valueless tail (by decide) in_tail)))))

theorem selection_valueless (selection : Option Expr)
    (simple : selectionHasSubquery selection = false) : Valueless (selectionWays selection) := by
  cases selection with
  | none => exact valueless_nil
  | some condition => exact condition.valueless simple

theorem Item.valueless (item : Item) (simple : item.hasSubquery = false) :
    Valueless item.ways := by
  cases item with
  | parts parts => exact parts_valueless parts (by decide) simple
  | qualifiedWildcard name options => exact parts_valueless options (by decide) simple

theorem items_valueless (items : List Item) (simple : itemsHaveSubquery items = false) :
    Valueless (itemsWays items) := by
  cases items with
  | nil => exact valueless_nil
  | cons item rest =>
    obtain ⟨first, others⟩ := Bool.or_eq_false_iff.mp simple
    exact (item.valueless first).append (items_valueless rest others)

theorem Source.valueless (source : Source) (simple : source.hasSubquery = false) :
    Valueless source.ways := by
  obtain ⟨relation, joins⟩ := source
  obtain ⟨first, others⟩ := Bool.or_eq_false_iff.mp simple
  exact (relation.valueless first).append (joins_valueless joins others)

theorem sources_valueless (sources : List Source)
    (simple : sourcesHaveSubquery sources = false) : Valueless (sourcesWays sources) := by
  cases sources with
  | nil => exact valueless_nil
  | cons source rest =>
    obtain ⟨first, others⟩ := Bool.or_eq_false_iff.mp simple
    exact (source.valueless first).append (sources_valueless rest others)

theorem joins_valueless (joins : List Join) (simple : joinsHaveSubquery joins = false) :
    Valueless (joinsWays joins) := by
  cases joins with
  | nil => exact valueless_nil
  | cons join rest =>
    obtain ⟨first, others⟩ := Bool.or_eq_false_iff.mp simple
    exact (join.valueless first).append (joins_valueless rest others)

theorem Join.valueless (join : Join) (simple : join.hasSubquery = false) :
    Valueless join.ways := by
  obtain ⟨kind, relation, constraint⟩ := join
  obtain ⟨first, others⟩ := Bool.or_eq_false_iff.mp simple
  exact (relation.valueless first).append (parts_valueless constraint (by decide) others)

theorem Relation.valueless (relation : Relation) (simple : relation.hasSubquery = false) :
    Valueless relation.ways := by
  obtain ⟨factor, aliased, hints⟩ := relation
  obtain ⟨first, others⟩ := Bool.or_eq_false_iff.mp simple
  exact (factor.valueless first).append (parts_valueless hints (by decide) others)

theorem Factor.valueless (factor : Factor) (simple : factor.hasSubquery = false) :
    Valueless factor.ways := by
  cases factor with
  | table name arguments => exact parts_valueless arguments (by decide) simple
  | derived lateral q => exact (q.valueless simple).under (by decide)
  | nested inner => exact inner.valueless simple
  | other parts => exact parts_valueless parts (by decide) simple

end

/-! ### Sources that are tables -/

mutual

-- Tables and joins of tables, in parentheses at any depth.
def Source.OfTables : Source → Prop
  | ⟨relation, joins⟩ => relation.OfTables ∧ JoinsOfTables joins

def JoinsOfTables : List Join → Prop
  | [] => True
  | ⟨_, relation, _⟩ :: rest => relation.OfTables ∧ JoinsOfTables rest

def Relation.OfTables : Relation → Prop
  | ⟨factor, _, _⟩ => factor.OfTables

def Factor.OfTables : Factor → Prop
  | .table _ _ => True
  | .derived _ _ => False
  | .nested inner => inner.OfTables
  | .other _ => False

end

-- Ways that lead into a kept part, and nowhere else.
def AllKept (ways : List Way) : Prop := ∀ way ∈ ways, way.head? = some .kept

section
variable {first second ways : List Way}

theorem all_kept_nil : AllKept [] := fun _ member => absurd member List.not_mem_nil

theorem AllKept.append (left : AllKept first) (right : AllKept second) :
    AllKept (first ++ second) := List.forall_mem_append.mpr ⟨left, right⟩

theorem kept_behind (ways : List Way) : AllKept (ways.map (.kept :: ·)) :=
  List.forall_mem_map.mpr fun _ _ => rfl

theorem kept_under (ways : List Way) : AllKept (under .kept ways) :=
  List.forall_mem_cons.mpr ⟨rfl, kept_behind ways⟩

end

mutual

theorem Expr.all_kept (e : Expr) (simple : e.hasSubquery = false) : AllKept e.ways := by
  cases e with
  | nested inner => exact inner.all_kept simple
  | unary op operand => exact operand.all_kept simple
  | binary left op right =>
    obtain ⟨first, second⟩ := Bool.or_eq_false_iff.mp simple
    exact (left.all_kept first).append (right.all_kept second)
  | form parts => exact parts_all_kept parts simple
  | subquery q => cases simple
  | inSubquery operand negated q => cases simple
  | existsSubquery negated q => cases simple
  | _ => exact all_kept_nil

theorem Part.all_kept (part : Part) (simple : part.hasSubquery = false) :
    AllKept (part.ways .kept) := by
  cases part with
  | words text => exact all_kept_nil
  | operand e => exact e.all_kept simple
  | query q => exact kept_under q.ways
  | source s => exact kept_behind s.ways

theorem parts_all_kept (parts : List Part) (simple : partsHaveSubquery parts = false) :
    AllKept (partsWays .kept parts) := by
  cases parts with
  | nil => exact all_kept_nil
  | cons part rest =>
    obtain ⟨first, others⟩ := Bool.or_eq_false_iff.mp simple
    exact (part.all_kept first).append (parts_all_kept rest others)

end

theorem items_all_kept (items : List Item) (simple : itemsHaveSubquery items = false) :
    AllKept (itemsWays items) := by
  induction items with
  | nil => exact all_kept_nil
  | cons item rest ih =>
    obtain ⟨first, others⟩ := Bool.or_eq_false_iff.mp simple
    have item_kept : AllKept item.ways := by
      cases item with
      | parts parts => exact parts_all_kept parts first
      | qualifiedWildcard name options => exact parts_all_kept options first
    exact item_kept.append (ih others)

mutual

theorem Source.all_kept (source : Source) (tables : source.OfTables)
    (simple : source.hasSubquery = false) : AllKept source.ways := by
  obtain ⟨relation, joins⟩ := source
  obtain ⟨first, others⟩ := Bool.or_eq_false_iff.mp simple
  exact (relation.all_kept tables.1 first).append (joins_all_kept joins tables.2 others)

theorem joins_all_kept (joins : List Join) (tables : JoinsOfTables joins)
    (simple : joinsHaveSubquery joins = false) : AllKept (joinsWays joins) := by
  cases joins with
  | nil => exact all_kept_nil
  | cons join rest =>
    obtain ⟨kind, relation, constraint⟩ := join
    obtain ⟨first, others⟩ := Bool.or_eq_false_iff.mp simple
    obtain ⟨inside, condition⟩ := Bool.or_eq_false_iff.mp first
    exact ((relation.all_kept tables.1 inside).append (parts_all_kept constraint condition)).append
      (joins_all_kept rest tables.2 others)

theorem Relation.all_kept (relation : Relation) (tables : relation.OfTables)
    (simple : relation.hasSubquery = false) : AllKept relation.ways := by
  obtain ⟨factor, aliased, hints⟩ := relation
  obtain ⟨first, others⟩ := Bool.or_eq_false_iff.mp simple
  exact (factor.all_kept tables first).append (parts_all_kept hints others)

theorem Factor.all_kept (factor : Factor) (tables : factor.OfTables)
    (simple : factor.hasSubquery = false) : AllKept factor.ways := by
  cases factor with
  | table name arguments => exact parts_all_kept arguments simple
  | derived lateral q => exact tables.elim
  | nested inner => exact inner.all_kept tables simple
  | other parts => exact tables.elim

end

theorem sources_all_kept (sources : List Source) (tables : ∀ source ∈ sources, source.OfTables)
    (simple : sourcesHaveSubquery sources = false) : AllKept (sourcesWays sources) := by
  induction sources with
  | nil => exact all_kept_nil
  | cons source rest ih =>
    obtain ⟨first, others⟩ := Bool.or_eq_false_iff.mp simple
    obtain ⟨here, later⟩ := List.forall_mem_cons.mp tables
    exact (source.all_kept here first).append (ih later others)

theorem Select.all_kept (block : Select) (tables : ∀ source ∈ block.sources, source.OfTables)
    (simple : block.hasSubquery = false) : AllKept block.ways := by
  obtain ⟨head, projection, target, sources, views, selection, tail⟩ := block
  simp only [Select.hasSubquery, Bool.or_eq_false_iff] at simple
  obtain ⟨⟨⟨⟨⟨in_head, in_projection⟩, in_sources⟩, in_views⟩, in_selection⟩, in_tail⟩ := simple
  have condition : AllKept (selectionWays selection) := by
    cases selection with
    | none => exact all_kept_nil
    | some condition => exact condition.all_kept in_selection
  exact (parts_all_kept head in_head).append
    ((items_all_kept projection in_projection).append
      ((sources_all_kept sources tables in_sources).append
        ((parts_all_kept views in_views).append
          (condition.append (parts_all_kept tail in_tail)))))

end TripleTable.Sql
