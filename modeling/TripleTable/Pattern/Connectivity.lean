import TripleTable.Pattern.DisjointSet
import TripleTable.Pattern.Triple
set_option autoImplicit false

/-!
Connectivity of triples. Two triples are adjacent when their subjects and objects share a
variable; a join plan needs every triple to be reachable from the first.
-/
namespace TripleTable.Pattern

structure Linking where
  classes : DisjointSet
  firstSeen : List (Text × Nat) := []

namespace Linking

def meet (l : Linking) (index : Nat) (name : Text) : Linking :=
  match l.firstSeen.lookup name with
  | some other => { l with classes := (l.classes.union other index).2 }
  | none => { l with firstSeen := (name, index) :: l.firstSeen }

def meetAll (l : Linking) : List (Triple × Nat) → Linking
  | [] => l
  | (t, index) :: rest => (t.variableNames.foldl (fun l v => l.meet index v) l).meetAll rest

end Linking

def firstApart? : DisjointSet → List Nat → Option Nat
  | _, [] => none
  | s, index :: rest =>
    let (together, s) := s.same 0 index
    if together then firstApart? s rest else some index

def checkConnected (triples : List Triple) : Except Defect Unit :=
  let linked := Linking.meetAll { classes := .ofSize triples.length } triples.zipIdx
  match firstApart? linked.classes (List.range' 1 (triples.length - 1)) with
  | some index => .error (.disconnected index)
  | none => .ok ()

end TripleTable.Pattern
