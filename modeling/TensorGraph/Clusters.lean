import TensorGraph.SignedIndex

/-!
# Clusters

Nodes are added one by one; each joins the clusters of the nodes it depends on, which become one.
-/

namespace TensorGraph

/-- Nodes in the order in which they were added, each with the number of its cluster, and the
members of the clusters. -/
structure Clusters (α : Type) where
  home : List (α × Nat)
  members : Array (List α)
deriving Inhabited

namespace Clusters

variable {α : Type} [BEq α]

def empty : Clusters α := ⟨[], #[]⟩

def find? (c : Clusters α) (x : α) : Option Nat := c.home.lookup x

def merge (c : Clusters α) (i j : Nat) : Clusters α :=
  if i == j then c
  else
    { home := c.home.map fun e => if e.2 == j then (e.1, i) else e
      members := c.members.modify i (· ++ c.members.getD j []) }

def put (c : Clusters α) (x : α) : Option Nat → Clusters α
  | some i => ⟨c.home ++ [(x, i)], c.members.modify i (· ++ [x])⟩
  | none => ⟨c.home ++ [(x, c.members.size)], c.members.push [x]⟩

/-- Adds a node with the nodes it depends on; those that are not there are passed over, as is a node
that is. -/
def add (c : Clusters α) (x : α) (deps : List α) : Clusters α :=
  if (c.find? x).isSome then c
  else
    let (c, i) := deps.foldl (fun (c, i) d =>
      match c.find? d, i with
      | none, i => (c, i)
      | some j, none => (c, some j)
      | some j, some i => (c.merge i j, some i)) (c, none)
    c.put x i

def toLists (c : Clusters α) : List (List α) := (c.home.map (·.2)).distinct.map fun i =>
    c.members.getD i []

end Clusters

end TensorGraph
