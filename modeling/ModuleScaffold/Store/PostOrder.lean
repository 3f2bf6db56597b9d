/-!
# Dependency order

The nodes of a graph in an order in which each stands behind the nodes it depends on. A node is
emitted behind its dependencies, which are visited first, in the order in which they are listed;
the walk starts at the nodes in ascending order. A node that is met again below itself closes a
cycle, which is reported instead.

The walk needs to know what has been emitted and which nodes are open; a node is open at most
once, so the depth is bounded by the number of nodes.
-/

namespace ModuleScaffold

namespace PostOrder

/-- The part of a list from the first occurrence of a node on. -/
def fromNode (node : Nat) (trail : List Nat) : List Nat :=
  trail.dropWhile (· != node)

/-- Emits a node behind its dependencies. `trail` holds the open nodes, the outermost first, and
`out` what has been emitted; the error is a cycle, its first node repeated at its end. -/
def visit (dependencies : Nat → List Nat) :
    Nat → List Nat → List Nat → Nat → Except (List Nat) (List Nat)
  | fuel, trail, out, node =>
    if out.contains node then .ok out
    else if trail.contains node then .error (fromNode node trail ++ [node])
    else match fuel with
      | 0 => .ok out
      | fuel + 1 => do
        let out ← (dependencies node).foldlM (visit dependencies fuel (trail ++ [node])) out
        return out ++ [node]

/-- The nodes below `count`, each behind its dependencies, or a cycle. -/
def order (dependencies : Nat → List Nat) (count : Nat) : Except (List Nat) (List Nat) :=
  (List.range count).foldlM (visit dependencies (count + 1) []) []

end PostOrder

end ModuleScaffold
