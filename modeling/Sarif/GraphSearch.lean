import Sarif.Node.FieldNames
import Sarif.Node.Children
import Sarif.NodeList

/-!
# Searching graphs

The nodes of a graph may be nested. A search by id looks at a node before its children and at
children in order, and ends at the first node of that id.
-/

namespace Sarif

namespace GraphNode

/-- The nodes nested directly in a node, without empty slots. -/
def nested (n : GraphNode) : List GraphNode :=
  NodeList.populated ((n.get children).getD [])

/-- The first node of an id among a node and those nested in it at most `depth` deep. -/
def findWithin (id : String) : (depth : Nat) → GraphNode → Option GraphNode
  | 0, _ => none
  | depth + 1, n =>
    if n.get GraphNode.id = id then some n else n.nested.findSome? (findWithin id depth)

/-- The first node of an id among a node and those nested in it. -/
def find? (n : GraphNode) (id : String) : Option GraphNode :=
  findWithin id n.depth n

end GraphNode

namespace Graph

/-- The first node of an id in a graph. -/
def find? (graph : Graph) (id : String) : Option GraphNode :=
  (NodeList.populated ((graph.get nodes).getD [])).findSome? (GraphNode.find? · id)

end Graph
end Sarif
