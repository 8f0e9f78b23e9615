import TripleTable.Pattern.Connectivity
import TripleTable.Plan.JoinPlan
set_option autoImplicit false

/-!
Resolution of triples into a join plan. The first triple is the anchor; in repeated passes over the
others, each is placed as soon as its subject or object is a bound variable, and joins on that
variable's first binding.
-/
namespace TripleTable.Plan
open Pattern (Term Triple Defect localName afterLastSlash checkConnected)

def literalOf (table : Text) (role : Role) (constant : Text) : Text :=
  if table = "type" ∧ role = .object then localName constant else afterLastSlash constant

def termAt (t : Triple) : Role → Term
  | .subject => t.subject
  | .object => t.object

namespace JoinPlan

def nextIndex (p : JoinPlan) : Nat := p.entries.length + 1

def bindSide (t : Triple) (role : Role) (state : JoinPlan × Entry) : JoinPlan × Entry :=
  let (p, entry) := state
  let here : Column := ⟨entry.index, role⟩
  match termAt t role with
  | .constant text =>
    ({ p with filters := p.filters ++ [⟨here, literalOf entry.table role text⟩] }, entry)
  | .variable name =>
    let ((first, created), bindings) := p.bindings.bind name here
    ({ p with bindings := bindings },
      if created then entry else { entry with extra := entry.extra ++ [⟨first, here⟩] })

def addEntry (state : JoinPlan × Entry) : JoinPlan :=
  { state.1 with entries := state.1.entries ++ [state.2] }

def newEntry (p : JoinPlan) (t : Triple) (join : Option Condition) : Entry :=
  { table := t.table?.getD [], index := p.nextIndex, join := join, extra := [] }

def placeAnchor (p : JoinPlan) (t : Triple) : JoinPlan :=
  addEntry (bindSide t .object (bindSide t .subject (p, p.newEntry t none)))

def bound? (p : JoinPlan) (term : Term) : Option Column := term.variable?.bind p.bindings.get?

def joinSide? (p : JoinPlan) (t : Triple) : Option (Role × Column) :=
  match p.bound? t.subject with
  | some column => some (.subject, column)
  | none => (p.bound? t.object).map fun column => (.object, column)

def tryPlace? (p : JoinPlan) (t : Triple) : Option JoinPlan :=
  (p.joinSide? t).map fun (role, column) =>
    addEntry (bindSide t role.opposite (p, p.newEntry t (some ⟨column, ⟨p.nextIndex, role⟩⟩)))

def pass (p : JoinPlan) : List (Triple × Nat) → JoinPlan × List (Triple × Nat)
  | [] => (p, [])
  | (t, index) :: rest =>
    match p.tryPlace? t with
    | some placed => placed.pass rest
    | none =>
      let (placed, waiting) := p.pass rest
      (placed, (t, index) :: waiting)

-- A pass that places nothing means that the triples are not connected.
def passUpTo : Nat → JoinPlan → List (Triple × Nat) → Except Defect JoinPlan
  | _, p, [] => .ok p
  | 0, _, (_, index) :: _ => .error (.disconnected index)
  | n + 1, p, (t, index) :: rest =>
    let (placed, waiting) := p.pass ((t, index) :: rest)
    if waiting.length = rest.length + 1 then .error (.disconnected index)
    else passUpTo n placed waiting

end JoinPlan

def resolve (triples : List Triple) : Except Defect JoinPlan :=
  match triples with
  | [] => .error .empty
  | anchor :: rest =>
    match triples.findIdx? fun t => t.table?.isNone with
    | some index => .error (.variablePredicate index)
    | none =>
      if anchor.variableNames = [] then .error (.bothTermsConcrete 0)
      else
        match checkConnected triples with
        | .error defect => .error defect
        | .ok () => JoinPlan.passUpTo rest.length (JoinPlan.placeAnchor {} anchor) (rest.zipIdx 1)

end TripleTable.Plan
