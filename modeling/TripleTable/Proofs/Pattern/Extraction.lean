import Mathlib.Logic.Relation
import TripleTable.Pattern.Extraction
import TripleTable.Proofs.Sparql.Consumption
set_option autoImplicit false

/-!
What the extracted triples are. They are the triples of the query without its MINUS blocks, one
for one, and every name in them is written out by the last declaration that concerns it: an
accepted query has declared all its prefixes, those under MINUS included.
-/
namespace TripleTable

namespace Sparql

def withoutMinus : Group → Group
  | [] => []
  | .triples block :: rest => .triples block :: withoutMinus rest
  | .group elements :: rest => .group (withoutMinus elements) :: withoutMinus rest
  | .minus _ :: rest => withoutMinus rest

-- The group with one MINUS block more: between two elements or two triples, at any depth.
inductive Inserted (block : Group) : Group → Group → Prop
  | here {rest} : Inserted block rest (.minus block :: rest)
  | dividing {front back rest} : Inserted block (.triples (front ++ back) :: rest)
    (.triples front :: .minus block :: .triples back :: rest)
  | behind {element rest longer} : Inserted block rest longer →
    Inserted block (element :: rest) (element :: longer)
  | inGroup {elements longer rest} : Inserted block elements longer →
    Inserted block (.group elements :: rest) (.group longer :: rest)
  | inMinus {elements longer rest} : Inserted block elements longer →
    Inserted block (.minus elements :: rest) (.minus longer :: rest)

-- Groups that become the same when MINUS blocks are added and removed.
def DiffersInMinus : Group → Group → Prop :=
  Relation.EqvGen fun shorter longer => ∃ block, Inserted block shorter longer

theorem without_minus_sublist : (group : Group) →
    (allTriples (withoutMinus group)).Sublist (allTriples group)
  | [] => by simp only [withoutMinus, List.Sublist.refl]
  | .triples block :: rest => by
    simp only [withoutMinus, allTriples]
    exact (without_minus_sublist rest).append_left _
  | .group elements :: rest => by
    simp only [withoutMinus, allTriples, Element.allTriples]
    exact (without_minus_sublist elements).append (without_minus_sublist rest)
  | .minus elements :: rest => by
    simp only [withoutMinus, allTriples]
    exact (without_minus_sublist rest).trans (List.sublist_append_right _ _)

section
variable {block group longer : Group}

theorem Inserted.without_minus (inserted : Inserted block group longer) :
    allTriples (withoutMinus longer) = allTriples (withoutMinus group) := by
  induction inserted with
  | here => simp only [withoutMinus]
  | dividing => simp [withoutMinus, allTriples, Element.allTriples]
  | @behind element _ _ _ ih =>
    cases element with
    | triples block => simp only [withoutMinus, allTriples, ih]
    | group elements => simp only [withoutMinus, allTriples, ih]
    | minus elements => simpa only [withoutMinus] using ih
  | inGroup _ ih => simp only [withoutMinus, allTriples, Element.allTriples, ih]
  | inMinus => simp only [withoutMinus]

-- The longer group has the triples of the shorter one and those of the block.
theorem Inserted.triples (inserted : Inserted block group longer) :
    (allTriples longer).Perm (allTriples block ++ allTriples group) := by
  induction inserted with
  | here => exact .refl _
  | @dividing front back rest =>
    have swapped := (List.perm_append_comm_assoc front (allTriples block) (back ++ allTriples rest))
    simpa [allTriples, Element.allTriples] using swapped
  | @behind element rest _ _ ih =>
    have swapped := List.perm_append_comm_assoc element.allTriples (allTriples block)
      (allTriples rest)
    exact (ih.append_left _).trans swapped
  | @inGroup elements _ rest _ ih =>
    have whole := ih.append_right (allTriples rest)
    rwa [List.append_assoc] at whole
  | @inMinus elements _ rest _ ih =>
    have whole := ih.append_right (allTriples rest)
    rwa [List.append_assoc] at whole

end

/-! ### Declared names -/

-- The value of the last item that has one.
def Last {α β : Type} (value? : α → Option β) (items : List α) (value : β) : Prop :=
  ∃ before item after, items = before ++ item :: after ∧ value? item = some value ∧
    ∀ other ∈ after, value? other = none

def Declaration.base? : Declaration → Option Text
  | base iri => some iri
  | label _ _ => none

def Declaration.iri? (wanted : Text) : Declaration → Option Text
  | base _ => none
  | label known iri => if known = wanted then some iri else none

section
variable {α β : Type} {value? : α → Option β} {items : List α}

theorem last_found (value : β) :
    Last value? items value ↔ items.reverse.findSome? value? = some value := by
  rw [List.findSome?_eq_some_iff]
  constructor
  · rintro ⟨before, item, after, rfl, found, others⟩
    exact ⟨after.reverse, item, before.reverse, by simp, found, by simpa using others⟩
  · rintro ⟨after, item, before, reversed, found, others⟩
    refine ⟨before.reverse, item, after.reverse, ?_, found, by simpa using others⟩
    rw [← List.reverse_reverse items, reversed]
    simp

theorem none_last : items.reverse.findSome? value? = none ↔ ∀ item ∈ items, value? item = none := by
  simp

end

-- What a prologue holds after its declarations, if each of them decides it or leaves it alone.
theorem declare_all {β : Type} {value? : Declaration → Option β} (look : Prologue → Option β)
    (step : ∀ p declaration, look (p.declare declaration) = (value? declaration).or (look p))
    (declarations : List Declaration) (p : Prologue) :
    look (declarations.foldl Prologue.declare p) =
      (declarations.reverse.findSome? value?).or (look p) := by
  induction declarations generalizing p with
  | nil => rfl
  | cons declaration others ih =>
    rw [List.foldl_cons, ih, step, List.reverse_cons, List.findSome?_append, Option.or_assoc,
      List.findSome?_singleton]

theorem declare_base (p : Prologue) (declaration : Declaration) :
    (p.declare declaration).base = declaration.base?.or p.base := by
  cases declaration with
  | base iri => rfl
  | label label iri => rfl

theorem declare_namespace (wanted : Text) (p : Prologue) (declaration : Declaration) :
    (p.declare declaration).namespace? wanted =
      (declaration.iri? wanted).or (p.namespace? wanted) := by
  cases declaration with
  | base iri => rfl
  | label label iri =>
    by_cases same : label = wanted
    · simp [Prologue.declare, Prologue.namespace?, Declaration.iri?, same]
    · simp [Prologue.declare, Prologue.namespace?, Declaration.iri?, same]

theorem declared_base (declarations : List Declaration) :
    (declarations.foldl Prologue.declare {}).base =
      declarations.reverse.findSome? Declaration.base? := by
  exact (declare_all Prologue.base declare_base declarations {}).trans Option.or_none

theorem declared_namespace (declarations : List Declaration) (wanted : Text) :
    (declarations.foldl Prologue.declare {}).namespace? wanted =
      declarations.reverse.findSome? (Declaration.iri? wanted) := by
  exact (declare_all (·.namespace? wanted) (declare_namespace wanted) declarations {}).trans Option.or_none

end Sparql

namespace Pattern
open Sparql Reader

-- How the declarations of a text write a term out.
inductive WrittenOut (declarations : List Declaration) : Sparql.Term → Term → Prop
  | «variable» {name} : WrittenOut declarations (.variable name) (.variable name)
  | literal {lexical} : WrittenOut declarations (.literal lexical) (.constant lexical)
  | rdfType : WrittenOut declarations .rdfType (.constant rdfTypeIri)
  | absolute {iri} : ':' ∈ iri → WrittenOut declarations (.iri iri) (.constant iri)
  | relative {iri base} : ':' ∉ iri → Last Declaration.base? declarations base →
    WrittenOut declarations (.iri iri) (.constant (base ++ iri))
  | unbased {iri} : ':' ∉ iri → (∀ base, .base base ∉ declarations) →
    WrittenOut declarations (.iri iri) (.constant iri)
  | «prefixed» {label name iri} : Last (Declaration.iri? label) declarations iri →
    WrittenOut declarations (.prefixed label name) (.constant (iri ++ name))

structure TripleWritten (declarations : List Declaration) (t : TriplePattern) (u : Triple) :
    Prop where
  subject : WrittenOut declarations t.subject u.subject
  predicate : WrittenOut declarations t.predicate u.predicate
  object : WrittenOut declarations t.object u.object

section
variable {declarations : List Declaration} {p : Prologue}

theorem no_base : declarations.reverse.findSome? Declaration.base? = none ↔
    ∀ base, .base base ∉ declarations := by
  rw [none_last]
  constructor
  · intro none base member
    cases none _ member
  · intro absent declaration member
    cases declaration with
    | base iri => exact absurd member (absent iri)
    | label label iri => rfl

theorem resolve_written (iri : Text) (u : Term) :
    WrittenOut declarations (.iri iri) u ↔
      u = .constant ((declarations.foldl Prologue.declare {}).resolve iri) := by
  rw [Prologue.resolve, declared_base]
  constructor
  · intro written
    cases written with
    | absolute colon =>
      cases declarations.reverse.findSome? Declaration.base? with
      | none => rfl
      | some base => simp [colon]
    | relative colon last =>
      rw [(last_found _).mp last]
      simp [colon]
    | unbased colon absent => rw [no_base.mpr absent]
  · rintro rfl
    by_cases colon : ':' ∈ iri
    · cases declarations.reverse.findSome? Declaration.base? with
      | none => exact .absolute colon
      | some base =>
        have written : WrittenOut declarations (.iri iri) (.constant iri) := .absolute colon
        simpa [colon] using written
    · cases found : declarations.reverse.findSome? Declaration.base? with
      | none => exact .unbased colon (no_base.mp found)
      | some base => simpa [colon] using WrittenOut.relative colon ((last_found _).mpr found)

-- A declared name is written out in one way, and never as it stands.
theorem term_written {term : Sparql.Term}
    (declared : ∀ label name, term = .prefixed label name →
      ((declarations.foldl Prologue.declare {}).namespace? label).isSome) (u : Term) :
    WrittenOut declarations term u ↔
      u = Term.ofQuery (declarations.foldl Prologue.declare {}) term := by
  cases term with
  | iri text => exact resolve_written text u
  | «prefixed» label name =>
    obtain ⟨iri, known⟩ := Option.isSome_iff_exists.mp (declared label name rfl)
    have last := declared_namespace declarations label ▸ known
    have expanded : Term.ofQuery (declarations.foldl Prologue.declare {}) (.prefixed label name) =
        .constant (iri ++ name) := by
      simp [Term.ofQuery, Prologue.expand?, known]
    rw [expanded]
    constructor
    · intro written
      cases written with
      | «prefixed» other =>
        rw [(last_found _).mp other] at last
        cases last
        rfl
    · rintro rfl
      exact .prefixed ((last_found _).mpr last)
  | «variable» name => exact ⟨fun written => by cases written; rfl, by rintro rfl; exact .variable⟩
  | rdfType => exact ⟨fun written => by cases written; rfl, by rintro rfl; exact .rdfType⟩
  | literal lexical => exact ⟨fun written => by cases written; rfl, by rintro rfl; exact .literal⟩

theorem triple_written {t : TriplePattern}
    (declared : ∀ label name, .prefixed label name ∈ t.terms →
      ((declarations.foldl Prologue.declare {}).namespace? label).isSome) (u : Triple) :
    TripleWritten declarations t u ↔
      u = Triple.ofQuery (declarations.foldl Prologue.declare {}) t := by
  have each (term : Sparql.Term) (inside : term ∈ t.terms) (v : Term) :
      WrittenOut declarations term v ↔
        v = Term.ofQuery (declarations.foldl Prologue.declare {}) term :=
    term_written (fun label name same => declared label name (same ▸ inside)) v
  obtain ⟨subject, predicate, object⟩ := t
  obtain ⟨subject', predicate', object'⟩ := u
  have subject_written := each subject (by simp [TriplePattern.terms]) subject'
  have predicate_written := each predicate (by simp [TriplePattern.terms]) predicate'
  have object_written := each object (by simp [TriplePattern.terms]) object'
  simp only [Triple.ofQuery, Triple.mk.injEq, ← subject_written, ← predicate_written,
    ← object_written]
  exact ⟨fun written => ⟨written.subject, written.predicate, written.object⟩,
    fun ⟨first, second, third⟩ => ⟨first, second, third⟩⟩

end

-- A relation that is a function on the items of a list is that function on the whole list.
theorem forall₂_function {α β : Type} {R : α → β → Prop} {f : α → β} {items : List α}
    (each : ∀ a ∈ items, ∀ b, R a b ↔ b = f a) (images : List β) :
    List.Forall₂ R items images ↔ images = items.map f := by
  induction items generalizing images with
  | nil => simp
  | cons a items ih =>
    obtain ⟨first, others⟩ := List.forall_mem_cons.mp each
    cases images with
    | nil => simp
    | cons b images => simp [first b, ih others images]

theorem of_group_flattened (p : Prologue) : (group : Group) →
    ofGroup p group = (allTriples (withoutMinus group)).map (Triple.ofQuery p)
  | [] => by simp only [ofGroup, withoutMinus, allTriples, List.map_nil]
  | .triples block :: rest => by
    simp only [ofGroup, ofElement, withoutMinus, allTriples, Element.allTriples,
      List.map_append, of_group_flattened p rest]
  | .group elements :: rest => by
    simp only [ofGroup, ofElement, withoutMinus, allTriples, Element.allTriples,
      List.map_append, of_group_flattened p elements, of_group_flattened p rest]
  | .minus elements :: rest => by
    simp only [ofGroup, ofElement, withoutMinus, List.nil_append, of_group_flattened p rest]

theorem differs_in_minus {group other : Group} (p : Prologue)
    (differs : DiffersInMinus group other) : ofGroup p other = ofGroup p group := by
  induction differs with
  | rel shorter longer inserted =>
    obtain ⟨block, inserted⟩ := inserted
    rw [of_group_flattened, of_group_flattened, inserted.without_minus]
  | refl => rfl
  | symm _ _ _ ih => exact ih.symm
  | trans _ _ _ _ _ first second => exact second.trans first

theorem query_declarations {s : Text} {q : SelectQuery} (accepted : parseQuery s = .ok q) :
    ∃ declarations front rest, s = front ++ rest ∧ DeclarationsSpelled declarations front ∧
      (selectClause rest).isOk ∧ q.prologue = declarations.foldl Prologue.declare {} := by
  obtain ⟨_, read, _, _⟩ := accepted_read accepted
  obtain ⟨declared, t, prologue_read, behind⟩ := bind_read read
  obtain ⟨parts, u, clause, behind⟩ := bind_read behind
  obtain ⟨_, v, _, behind⟩ := bind_read behind
  obtain ⟨pattern, w, _, done⟩ := bind_read behind
  obtain ⟨rfl, rfl⟩ := pure_read done
  obtain ⟨declarations, front, split, spelled, rfl⟩ := declarations_text prologue_read
  refine ⟨declarations, front, t, split, spelled, ?_, rfl⟩
  rw [within_read clause]
  rfl

-- What is extracted from a text: the triples of its query without the MINUS blocks, in document
-- order, each written out by the declarations at the beginning of the text. Every prefix is
-- declared there. MINUS blocks that come or go change none of the triples.
theorem extraction_written_out {s : Text} {q : SelectQuery} (accepted : parseQuery s = .ok q) :
    (∃ declarations front rest, s = front ++ rest ∧ DeclarationsSpelled declarations front ∧
      (selectClause rest).isOk ∧
      ∀ extracted, List.Forall₂ (TripleWritten declarations)
        (allTriples (withoutMinus q.pattern)) extracted ↔
          extracted = ofGroup q.prologue q.pattern) ∧
      (∀ t ∈ allTriples q.pattern, ∀ label name, .prefixed label name ∈ t.terms →
        (q.prologue.expand? label name).isSome) ∧
      (∀ group, DiffersInMinus q.pattern group →
        ofGroup q.prologue group = ofGroup q.prologue q.pattern) ∧
      ∀ block group, Inserted block q.pattern group →
        (undeclared? q.prologue ((allTriples group).flatMap TriplePattern.terms) = none ↔
          undeclared? q.prologue ((allTriples block).flatMap TriplePattern.terms) = none) := by
  obtain ⟨_, _, _, none⟩ := accepted_read accepted
  have declared := undeclared_none.mp none
  refine ⟨?_, ?_, fun group differs => differs_in_minus q.prologue differs, ?_⟩
  · obtain ⟨declarations, front, rest, split, spelled, clause, folded⟩ :=
      query_declarations accepted
    refine ⟨declarations, front, rest, split, spelled, clause, fun extracted => ?_⟩
    rw [of_group_flattened, folded]
    refine forall₂_function (fun t inside => triple_written fun label name used => ?_) extracted
    rw [← folded]
    exact declared t ((without_minus_sublist q.pattern).subset inside) label name used
  · intro t inside label name used
    simpa [Prologue.expand?] using declared t inside label name used
  · intro block group inserted
    simp only [undeclared_none, inserted.triples.mem_iff, List.mem_append]
    exact ⟨fun all t inside => all t (.inl inside),
      fun block_declared t inside => inside.elim (block_declared t) (declared t)⟩

-- The triples extracted from a text.
def extracted? (s : Text) : Option (List Triple) :=
  (parseQuery s).toOption.map fun q => ofGroup q.prologue q.pattern

-- Base and prefix are declared twice, and MINUS stands at two depths.
def overruledText : Text :=
  "BASE <x/> PREFIX u: <old#> BASE <y/> PREFIX u: <n#> SELECT * \x7b ?s u:p <q> . " ++
    "MINUS \x7b ?s u:p 'z' \x7d \x7b ?s a 'it' MINUS \x7b ?s <http://r> ?o \x7d \x7d \x7d"

def overruledTriples : List Triple := [
  ⟨.variable "s", .constant "n#p", .constant "y/q"⟩,
  ⟨.variable "s", .constant rdfTypeIri, .constant "it"⟩]

theorem overruled_written_out : ∃ q, parseQuery overruledText = .ok q ∧
    ofGroup q.prologue q.pattern = overruledTriples ∧
    ∃ declarations front rest, overruledText = front ++ rest ∧
      DeclarationsSpelled declarations front ∧
      List.Forall₂ (TripleWritten declarations) (allTriples (withoutMinus q.pattern))
        overruledTriples := by
  have found : extracted? overruledText = some overruledTriples := by decide +kernel
  unfold extracted? at found
  cases accepted : parseQuery overruledText with
  | error trace =>
    rw [accepted] at found
    cases found
  | ok q =>
    rw [accepted] at found
    have extracted : ofGroup q.prologue q.pattern = overruledTriples := Option.some.inj found
    obtain ⟨⟨declarations, front, rest, split, spelled, _, only⟩, _⟩ :=
      extraction_written_out accepted
    exact ⟨q, rfl, extracted, declarations, front, rest, split, spelled,
      (only _).mpr extracted.symm⟩

end Pattern
end TripleTable
