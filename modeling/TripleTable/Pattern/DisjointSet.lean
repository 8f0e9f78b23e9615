set_option autoImplicit false

/-!
Disjoint sets of the numbers below a size: a forest of parent links in which a look-up shortens the
path it follows and a union hangs the root of lower rank below the other.
-/
namespace TripleTable.Pattern

structure DisjointSet where
  parent : Array Nat
  rank : Array Nat
deriving Repr

namespace DisjointSet

def ofSize (size : Nat) : DisjointSet := ⟨Array.range size, Array.replicate size 0⟩

def size (s : DisjointSet) : Nat := s.parent.size

def parentOf (s : DisjointSet) (x : Nat) : Nat := s.parent.getD x x

def rankOf (s : DisjointSet) (x : Nat) : Nat := s.rank.getD x 0

def climb (s : DisjointSet) : Nat → Nat → Nat
  | 0, x => x
  | n + 1, x => if s.parentOf x = x then x else s.climb n (s.parentOf x)

def root (s : DisjointSet) (x : Nat) : Nat := s.climb s.size x

def compress (root : Nat) : Nat → Nat → DisjointSet → DisjointSet
  | 0, _, s => s
  | n + 1, x, s =>
    if s.parentOf x = root then s
    else compress root n (s.parentOf x) { s with parent := s.parent.setIfInBounds x root }

def find (s : DisjointSet) (x : Nat) : Nat × DisjointSet :=
  let root := s.root x
  (root, compress root s.size x s)

def union (s : DisjointSet) (x y : Nat) : Bool × DisjointSet :=
  let (rootX, s) := s.find x
  let (rootY, s) := s.find y
  if rootX = rootY then (false, s)
  else if s.rankOf rootX < s.rankOf rootY then
    (true, { s with parent := s.parent.setIfInBounds rootX rootY })
  else if s.rankOf rootY < s.rankOf rootX then
    (true, { s with parent := s.parent.setIfInBounds rootY rootX })
  else
    (true,
      { parent := s.parent.setIfInBounds rootY rootX
        rank := s.rank.setIfInBounds rootX (s.rankOf rootX + 1) })

def same (s : DisjointSet) (x y : Nat) : Bool × DisjointSet :=
  let (rootX, s) := s.find x
  let (rootY, s) := s.find y
  (rootX == rootY, s)

end DisjointSet
end TripleTable.Pattern
